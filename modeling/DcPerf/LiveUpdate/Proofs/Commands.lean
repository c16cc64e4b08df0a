import DcPerf.LiveUpdate.Commands
import DcPerf.LiveUpdate.Proofs.Blocks

/-!
# Commands and the RPCs they spell

All requests but those that join their words decode to the RPC they mean, and the commands of a run
are commands of requests.
-/

namespace DcPerf.LiveUpdate

open DcPerf.Library DcPerf.Library.ArgVector

section Words

variable {o : Options} {name value : String}

/-- The parser knows the option or the flag of an item. -/
def Knows (o : Options) : Item → Prop
  | .pos _ => True
  | .opt n _ => dashed n = true ∧ n ∈ o.valued
  | .glued _ _ => False
  | .flag n => dashed n = true ∧ n ∉ o.valued ∧ n ∈ o.flags

theorem readable_of_knows {i : Item} (h : Knows o i) (hv : ∀ v ∈ i.values, dashed v = false) :
    i.Readable o := by
  cases i with
  | pos v => exact hv v (by simp [Item.values])
  | opt n v => exact ⟨h.1, h.2, hv v (by simp [Item.values])⟩
  | glued n v => exact h.elim
  | flag n => exact h

theorem readable_opt (hn : dashed name = true) (hmem : name ∈ o.valued)
    (hv : dashed value = false) : Item.Readable o (.opt name value) := ⟨hn, hmem, hv⟩

theorem method_single (r : Rpc) : ' ' ∉ r.method.toList ∧ ';' ∉ r.method.toList := by
  cases r <;> simp [Rpc.method]

/-- A command whose method is a word of its own decodes if its parameters can be read back. -/
theorem decodes_iff_read (sockName : Sock → String) {c : Cmd} (hm : c.method = c.rpc.method) :
    c.Decodes sockName ↔
      (read c.rpc.options c.params).map reading = some (reading c.rpc.items) := by
  constructor
  · intro h
    exact h.args
  · intro h
    have hword : (c.argv sockName)[3]? = some c.rpc.method := by
      rw [← hm]
      rfl
    refine ⟨hword, fun m hmem => ?_, h⟩
    rw [hword, Option.mem_some_iff] at hmem
    rw [← hmem]
    exact method_single c.rpc

theorem decodes_of_readable (sockName : Sock → String) {c : Cmd} (hm : c.method = c.rpc.method)
    (hp : c.params = render c.rpc.items) (h : ∀ i ∈ c.rpc.items, i.Readable c.rpc.options) :
    c.Decodes sockName := by
  rw [decodes_iff_read sockName hm, hp, read_render _ h]
  rfl

/-- A method with a blank in it is no method. -/
theorem not_decodes_of_blank (sockName : Sock → String) {c : Cmd} (h : ' ' ∈ c.method.toList) :
    ¬c.Decodes sockName := by
  intro hd
  have hword : (c.argv sockName)[3]? = some c.method := rfl
  exact (hd.single c.method hword).1 h

end Words

/-! ## The name of a Malloc disk -/

section Malloc

variable {name uuid : String} {totalSize blockSize : ℕ}

/-- The parser of `bdev_malloc_create`. -/
abbrev mallocOptions : Options := ⟨["-b", "--uuid"], []⟩

theorem readable_glued (hne : name ≠ "") (heq : name.toList.head? ≠ some '=') :
    Item.Readable mallocOptions (.glued "-b" name) := by
  have hlong : "-b" ++ name ≠ "--uuid" := by
    intro h
    have hchars := congrArg String.toList h
    simp at hchars
  have hassign : mallocOptions.assignment ("-b" ++ name) = none := by
    have hcut : ¬['='] <+: name.toList := by
      rintro ⟨t, ht⟩
      simp [← ht] at heq
    simpa [Options.assignment, Options.cut] using hcut
  have hglue : mallocOptions.gluing ("-b" ++ name) = some ("-b", name) := by
    simp [Options.gluing, Options.cut]
  refine ⟨by simp [dashed], ?_, by simp, hassign, hglue⟩
  simp [hne, hlong]

/-- Without a name the option takes no value, because the next word is an option. -/
theorem read_malloc_empty (ht : dashed (toString totalSize) = false)
    (hb : dashed (toString blockSize) = false) :
    read mallocOptions [toString totalSize, toString blockSize, "-b" ++ "", "--uuid", uuid] =
      none := by
  have hempty : "-b" ++ "" = "-b" := by simp
  rw [hempty, ArgVector.read, readFrom, if_pos ht, readFrom, if_pos hb, readFrom, if_neg (by simp [dashed]),
    if_pos (by simp), readFrom, if_pos (by simp [dashed])]
  rfl

/-- A name that starts with `=` loses it. -/
theorem read_malloc_assign {rest : List Char} (ht : dashed (toString totalSize) = false)
    (hb : dashed (toString blockSize) = false) (hu : dashed uuid = false)
    (hname : name.toList = '=' :: rest) :
    read mallocOptions [toString totalSize, toString blockSize, "-b" ++ name, "--uuid", uuid] =
      some [.pos (toString totalSize), .pos (toString blockSize), .opt "-b" (String.ofList rest),
        .opt "--uuid" uuid] := by
  have hassign : mallocOptions.assignment ("-b" ++ name) = some ("-b", String.ofList rest) := by
    simp [Options.assignment, Options.cut, hname]
  have hne : name ≠ "" := by
    rintro rfl
    simp at hname
  have hlong : "-b" ++ name ≠ "--uuid" := by
    intro h
    have hchars := congrArg String.toList h
    simp at hchars
  have hmem : "-b" ++ name ∉ mallocOptions.valued := by simp [hne, hlong]
  rw [ArgVector.read, readFrom, if_pos ht, readFrom, if_pos hb, readFrom, if_neg (by simp [dashed]),
    if_neg hmem, if_neg (by simp), hassign]
  have huuid : readFrom mallocOptions none ["--uuid", uuid] = some [.opt "--uuid" uuid] :=
    read_words mallocOptions (readable_opt (by simp [dashed]) (by simp) hu) []
  simp only [huuid, Option.map_some]

end Malloc

/-! ## Requests -/

theorem dashed_nat (n : ℕ) : dashed (toString n) = false := by
  rw [dashed, Nat.toString_eq_repr, Nat.toList_repr]
  cases hd : (Nat.toDigits 10 n).head? with
  | none => rfl
  | some c =>
    have hc : c ∈ Nat.toDigits 10 n := List.mem_of_head? hd
    have hdigit := Nat.isDigit_of_mem_toDigits (by omega) (by omega) hc
    by_contra h
    have hdash : c = '-' := by simpa using h
    rw [hdash] at hdigit
    simp at hdigit

section Requests

variable (sockName : Sock → String)

theorem decodes_malloc (info : Bdev) (h : (bdevMallocCreateCmd info).rpc.Plain) :
    (bdevMallocCreateCmd info).Decodes sockName ↔
      info.name ≠ "" ∧ info.name.toList.head? ≠ some '=' := by
  have ht := dashed_nat info.totalSize
  have hb := dashed_nat info.blockSize
  have hu : dashed info.uuid = false := h (.opt "--uuid" info.uuid) (by
    simp [bdevMallocCreateCmd, Rpc.items]) info.uuid (by simp [Item.values])
  rw [decodes_iff_read sockName rfl]
  constructor
  · intro hd
    refine ⟨fun hname => ?_, fun hname => ?_⟩
    · have hread : ArgVector.read (bdevMallocCreateCmd info).rpc.options
          (bdevMallocCreateCmd info).params = none := by
        rw [bdevMallocCreateCmd, hname]
        exact read_malloc_empty ht hb
      rw [hread] at hd
      simp at hd
    · obtain ⟨rest, hrest⟩ : ∃ rest, info.name.toList = '=' :: rest := by
        cases hl : info.name.toList with
        | nil => simp [hl] at hname
        | cons c rest => exact ⟨rest, by simpa [hl] using hname⟩
      have hread := read_malloc_assign ht hb hu hrest
      have heq : (ArgVector.read (bdevMallocCreateCmd info).rpc.options
          (bdevMallocCreateCmd info).params) = _ := hread
      rw [heq] at hd
      have hname' : String.ofList rest = info.name := by
        simpa [bdevMallocCreateCmd, Rpc.items, reading] using hd
      rw [← hname'] at hrest
      simp at hrest
  · rintro ⟨hne, heq⟩
    have hparams : (bdevMallocCreateCmd info).params = render (bdevMallocCreateCmd info).rpc.items :=
      rfl
    rw [hparams, read_render _ ?_]
    · rfl
    · intro i hi
      simp only [bdevMallocCreateCmd, Rpc.items, List.mem_cons, List.not_mem_nil, or_false] at hi
      rcases hi with rfl | rfl | rfl | rfl
      · exact ht
      · exact hb
      · exact readable_glued hne heq
      · exact readable_opt (by simp [dashed]) (by simp [bdevMallocCreateCmd, Rpc.options]) hu

/-- Outside `bdev_malloc_create`, the parser of the method knows what a separate request passes. -/
theorem request_knows {r : Request} (hr : r.Separate) (hm : ∀ info, r ≠ .bdevMallocCreate info) :
    ∀ i ∈ r.cmd.rpc.items, Knows r.cmd.rpc.options i := by
  cases r with
  | bdevMallocCreate info => exact absurd rfl (hm info)
  | cleanupVblkController => exact hr.elim
  | restoreVblkController => exact hr.elim
  | bdevNvmeAttachController =>
    simp [Request.cmd, bdevNvmeAttachControllerCmd, Rpc.items, Rpc.options, Knows, dashed]
  | bdevNullCreate => simp [Request.cmd, bdevNullCreateCmd, Rpc.items, Rpc.options, Knows, dashed]
  | bdevNvmeDetachController => simp [Request.cmd, bdevNvmeDetachControllerCmd, Rpc.items, Knows]
  | bdevNullDelete => simp [Request.cmd, bdevNullDeleteCmd, Rpc.items, Knows]
  | bdevMallocDelete => simp [Request.cmd, bdevMallocDeleteCmd, Rpc.items, Knows]
  | suspendVblkCtrl =>
    simp [Request.cmd, suspendVblkCtrlCmd, truthy, Rpc.items, Rpc.options, Knows, dashed]
  | destroyVblkCtrl c force =>
    cases force <;>
      simp [Request.cmd, destroyVblkCtrlCmd, truthy, Rpc.items, Rpc.options, Knows, dashed]
  | createNvmeSubsys =>
    simp [Request.cmd, createNvmeSubsysCmd, Rpc.items, Rpc.options, Knows, dashed]
  | createNvmeNamespace =>
    simp [Request.cmd, createNvmeNamespaceCmd, Rpc.items, Rpc.options, Knows, dashed]
  | quietNvmeCtrl =>
    simp [Request.cmd, suspendNvmeCtrlCmd, truthy, Rpc.items, Rpc.options, Knows, dashed]
  | suspendNvmeCtrl =>
    simp only [Request.cmd, suspendNvmeCtrlCmd, truthy, Rpc.items, Rpc.options]
    rintro i hi
    simp at hi
    rcases hi with rfl | rfl | rfl <;> simp [Knows, dashed]
  | createPassiveNvmeController =>
    simp [Request.cmd, createPassiveNvmeControllerCmd, Rpc.items, Rpc.options, Knows, dashed]
  | attachNvmeNs => simp [Request.cmd, attachNvmeNsCmd, Rpc.items, Rpc.options, Knows, dashed]
  | detachNvmeNs => simp [Request.cmd, detachNvmeNsCmd, Rpc.items, Rpc.options, Knows, dashed]
  | destroyNvmeController =>
    simp [Request.cmd, destroyNvmeControllerCmd, Rpc.items, Rpc.options, Knows, dashed]

/-- A separate request sends the name of its method and the words of its items. -/
theorem request_words {r : Request} (hr : r.Separate) :
    r.cmd.method = r.cmd.rpc.method ∧ r.cmd.params = render r.cmd.rpc.items := by
  cases r with
  | cleanupVblkController => exact hr.elim
  | restoreVblkController => exact hr.elim
  | destroyVblkCtrl c force => cases force <;> exact ⟨rfl, rfl⟩
  | _ => exact ⟨rfl, rfl⟩

/-- A request decodes to the RPC it means if and only if its words stay apart. -/
theorem request_decodes (r : Request) (h : r.cmd.rpc.Plain) :
    r.cmd.Decodes sockName ↔ r.Separate := by
  by_cases hm : ∃ info, r = .bdevMallocCreate info
  · obtain ⟨info, rfl⟩ := hm
    exact decodes_malloc sockName info h
  constructor
  · intro hd
    cases r with
    | cleanupVblkController c =>
      refine not_decodes_of_blank sockName ?_ hd
      simp [Request.cmd, cleanupVblkControllerCmd]
    | restoreVblkController c ctrl =>
      refine not_decodes_of_blank sockName ?_ hd
      simp [Request.cmd, restoreVblkControllerCmd]
    | bdevMallocCreate info => exact absurd ⟨info, rfl⟩ hm
    | _ => trivial
  · intro hr
    have hknows := request_knows hr fun info hi => hm ⟨info, hi⟩
    obtain ⟨hmethod, hparams⟩ := request_words hr
    exact decodes_of_readable sockName hmethod hparams fun i hi =>
      readable_of_knows (hknows i hi) (h i hi)

theorem request_decodes_small :
    (Request.bdevNullCreate (.small "n0" "Null disk" .empty)).cmd.rpc.Plain ∧
      (Request.bdevNullCreate (.small "n0" "Null disk" .empty)).cmd.Decodes fun _ => "spdk.sock" :=
  ⟨by decide +kernel, (request_decodes _ _ (by decide +kernel)).mpr trivial⟩

/-- The live update suspend of a VBLK controller does not decode: its method is the whole line. -/
theorem cleanup_not_decoded :
    (Request.cleanupVblkController "v0").cmd.rpc.Plain ∧
      ¬(Request.cleanupVblkController "v0").cmd.Decodes fun _ => "spdk.sock" := by
  refine ⟨by decide +kernel, fun h => ?_⟩
  have hmethod := h.method
  revert hmethod
  decide +kernel

end Requests

/-! ## The commands of a run -/

/-- The command is that of a request. -/
def Cmd.Requested (c : Cmd) : Prop := ∃ r : Request, r.cmd = c

theorem handVblkOver_requested {c : String} {ctrl : VblkCtrl} :
    ∀ cmd ∈ handVblkOver c ctrl, cmd.Requested := by
  intro cmd h
  simp only [handVblkOver, List.mem_cons, List.not_mem_nil, or_false] at h
  rcases h with rfl | rfl | rfl
  · exact ⟨.suspendVblkCtrl c, rfl⟩
  · exact ⟨.cleanupVblkController c, rfl⟩
  · exact ⟨.restoreVblkController c ctrl, rfl⟩

theorem handNvmeOver_requested {ctrl : NvmeCtrl} :
    ∀ cmd ∈ handNvmeOver ctrl, cmd.Requested := by
  intro cmd h
  simp only [handNvmeOver, List.mem_append, List.mem_cons, List.not_mem_nil, or_false,
    List.mem_map] at h
  rcases h with ((rfl | rfl) | ⟨n, -, rfl⟩) | rfl
  · exact ⟨.quietNvmeCtrl ctrl, rfl⟩
  · exact ⟨.createPassiveNvmeController ctrl, rfl⟩
  · exact ⟨.attachNvmeNs ctrl n, rfl⟩
  · exact ⟨.suspendNvmeCtrl ctrl, rfl⟩

theorem destroyVblkCtrlCmd_requested (c : String) {params : Option String}
    (hp : params ∈ [none, some "force"]) : (destroyVblkCtrlCmd c params).Requested := by
  rcases List.mem_cons.mp hp with rfl | hp
  · exact ⟨.destroyVblkCtrl c false, rfl⟩
  · rw [List.mem_singleton.mp hp]
    exact ⟨.destroyVblkCtrl c true, rfl⟩

theorem IsCreateBdevCmd.requested {c : Cmd} (h : IsCreateBdevCmd c) : c.Requested := by
  cases h with
  | attach base trtype adrfam traddr trsvcid subnqn =>
    exact ⟨.bdevNvmeAttachController base trtype adrfam traddr trsvcid subnqn, rfl⟩
  | null info => exact ⟨.bdevNullCreate info, rfl⟩
  | malloc info => exact ⟨.bdevMallocCreate info, rfl⟩

theorem IsDestroyBdevCmd.requested {c : Cmd} (h : IsDestroyBdevCmd c) : c.Requested := by
  cases h with
  | detach base => exact ⟨.bdevNvmeDetachController base, rfl⟩
  | null info => exact ⟨.bdevNullDelete info, rfl⟩
  | malloc info => exact ⟨.bdevMallocDelete info, rfl⟩

theorem fixed_requested {self : Manager} {a : Action} (ha : a ∈ plan self) {c : Cmd}
    (hc : a.fixed = some c) : c.Requested := by
  cases fixed_controllerCmd ha hc with
  | handVblk i ctrl cmd hcmd => exact handVblkOver_requested c hcmd
  | destroyVblk i params hp => exact destroyVblkCtrlCmd_requested i hp
  | handNvme ctrl cmd hcmd => exact handNvmeOver_requested c hcmd
  | detach i n => exact ⟨.detachNvmeNs i n.nsid, rfl⟩
  | destroyNvme i => exact ⟨.destroyNvmeController i, rfl⟩

theorem sends_requested {self : Manager} {a : Action} (ha : a ∈ plan self) {c : Cmd}
    (h : a.Sends c) : c.Requested := by
  cases a with
  | send c' =>
    obtain rfl : c = c' := h
    exact fixed_requested ha rfl
  | create b => exact h.requested
  | release c' b =>
    rcases h with rfl | h
    · exact fixed_requested ha rfl
    · exact h.requested
  | subsys nqn =>
    obtain ⟨subsys, rfl⟩ := h
    exact ⟨.createNvmeSubsys subsys, rfl⟩
  | ns ctrl n =>
    obtain rfl : c = createNvmeNamespaceCmd ctrl n := h
    exact ⟨.createNvmeNamespace ctrl n, rfl⟩
  | missing => exact h.elim

/-- Every command of every run is that of a request. -/
theorem run_requested (w : World) (answers : ℕ → Bool) :
    ∀ e ∈ (finalState (run w answers)).log, ∀ c ∈ e.cmd?, c.Requested := by
  have hrun := (run_always w answers (Q := fun _ e => ∀ c ∈ e.cmd?, c.Requested)
    (fun _ e he c hc => by simp [he] at hc) fun a ha s _ h => perform_always _ h
      fun _ e he c hc => sends_requested ha (he c hc)).2
  intro e he
  obtain ⟨pre, post, hl⟩ := List.append_of_mem he
  exact hrun pre e post hl

end DcPerf.LiveUpdate
