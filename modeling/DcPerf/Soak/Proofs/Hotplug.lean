import DcPerf.Soak.Hotplug

/-!
# The rounds of `hotplug.sh`

Whatever the DPU answers, the script asks that each function be taken down in the order in which it was set
up, under the name of its creation. Where no refusal stands, this is what happens. A well-formed reply names
the function that was created.
-/

namespace DcPerf.Soak.Hotplug

open DcPerf.Library DcPerf.Library.Protocol DcPerf.Library.ShellText

variable {w : TimedHost Command} {log : Log} {s t : Dpu}

/-! ## One command -/

/-- A command leads from one state to one other, whatever it comes back with. -/
theorem leads_call (c : Command) (h : ∀ reply, dpu.asked.Allowed s ⟨c, reply⟩ ∧ dpu.asked.next s ⟨c, reply⟩ = t) :
    dpu.asked.Leads (· = s) (w.call c) fun _ => (· = t) := by
  refine Leads.call c ?_
  rintro s' reply rfl
  exact h reply

theorem leads_echo (text : String) : dpu.asked.Leads (· = s) (w.call (.echo text)) fun _ => (· = s) :=
  leads_call _ fun _ => ⟨trivial, rfl⟩

theorem leads_sleep (n : ℕ) : dpu.asked.Leads (· = s) (w.call (.sleep n)) fun _ => (· = s) :=
  leads_call _ fun _ => ⟨trivial, rfl⟩

/-! ## Rounds -/

/-- A function with its name, and what is there of its controller. -/
def Dpu.of (vuid : List Char) (controller : Bool) (backing : Backing) (plugged : Bool) : Dpu :=
  ⟨some (words vuid), controller, backing, plugged⟩

theorem leads_create : dpu.asked.Leads (· = .empty) (w.output .virtioBlkFunctionCreate) fun output =>
    (· = .of (vuidOf (substitution output)) false .none false) := by
  refine Leads.output _ ?_
  rintro s reply rfl
  exact ⟨⟨rfl, rfl⟩, rfl⟩

/-- The function is set up. -/
theorem leads_createAttach (bdev : List Char) :
    dpu.asked.Leads (· = .empty) (createAttach w bdev) fun vuid => (· = .of vuid true .malloc true) := by
  refine leads_create.bind fun output => ?_
  set vuid := vuidOf (substitution output)
  have hecho : dpu.asked.Leads (· = .of vuid false .none false)
      (w.status (.echo "The vhca_id is not 5 and not 6")) fun _ => (· = .of vuid false .none false) :=
    Leads.status _ fun s reply hs => ⟨trivial, hs⟩
  have hcheck : dpu.asked.Leads (· = .of vuid false .none false)
      (onlyIf (Unexpected (vhcaId (substitution output))) do
        let rst ← w.status (.echo "The vhca_id is not 5 and not 6")
        throw { code := rst, msg := "The vhca_id is not 5 and not 6" })
      fun _ => (· = .of vuid false .none false) :=
    Leads.ite (hecho.bind fun rst => Leads.throw _) (Leads.pure _ fun _ hs => hs)
  have hcreate : dpu.asked.Leads (· = .of vuid false .none false)
      (w.call (.virtioBlkControllerCreate (words vuid) (words bdev)))
      fun _ => (· = .of vuid true .malloc false) := leads_call _ fun _ => ⟨⟨rfl, rfl⟩, rfl⟩
  have hmodify : dpu.asked.Leads (· = .of vuid true .malloc false) (w.call .virtioBlkControllerModify)
      fun _ => (· = .of vuid true .malloc false) := leads_call _ fun _ => ⟨⟨rfl, rfl⟩, rfl⟩
  have hhotplug : dpu.asked.Leads (· = .of vuid true .malloc false) (w.call .virtioBlkControllerHotplug)
      fun _ => (· = .of vuid true .malloc true) := leads_call _ fun _ => ⟨⟨rfl, rfl⟩, rfl⟩
  refine hcheck.bind fun _ => hcreate.bind fun _ => hmodify.bind fun _ => hhotplug.bind fun _ => ?_
  exact Leads.pure _ fun _ hs => hs

/-- The function is taken down. -/
theorem leads_detachDestroy (vuid : List Char) :
    dpu.asked.Leads (· = .of vuid true .malloc true) (detachDestroy w vuid) fun _ => (· = .empty) := by
  have hmalloc : Backing.malloc ≠ .none := by decide
  have hdetach : dpu.asked.Leads (· = .of vuid true .malloc true) (w.call .virtioBlkControllerBdevDetach)
      fun _ => (· = .of vuid true .none true) := leads_call _ fun _ => ⟨⟨rfl, hmalloc⟩, rfl⟩
  have hattach : dpu.asked.Leads (· = .of vuid true .none true) (w.call .virtioBlkControllerBdevAttach)
      fun _ => (· = .of vuid true .null true) := leads_call _ fun _ => ⟨⟨rfl, rfl⟩, rfl⟩
  have hunplug : dpu.asked.Leads (· = .of vuid true .null true) (w.call .virtioBlkControllerHotunplug)
      fun _ => (· = .of vuid true .null false) := leads_call _ fun _ => ⟨⟨rfl, rfl⟩, rfl⟩
  have hdestroy : dpu.asked.Leads (· = .of vuid true .null false) (w.call .virtioBlkControllerDestroy)
      fun _ => (· = .of vuid false .none false) := leads_call _ fun _ => ⟨⟨rfl, rfl⟩, rfl⟩
  have hfunction : dpu.asked.Leads (· = .of vuid false .none false)
      (w.call (.virtioBlkFunctionDestroy (words vuid))) fun _ => (· = .empty) :=
    leads_call _ fun _ => ⟨⟨rfl, rfl⟩, rfl⟩
  refine hdetach.bind fun _ => hattach.bind fun _ => (leads_sleep 2).bind fun _ => ?_
  exact hunplug.bind fun _ => hdestroy.bind fun _ => hfunction

theorem leads_round (bdev : List Char) (i : ℕ) :
    dpu.asked.Leads (· = .empty) (round w bdev i) fun _ => (· = .empty) := by
  refine (leads_echo _).bind fun _ => (leads_createAttach bdev).bind fun vuid => ?_
  refine (leads_echo _).bind fun _ => (leads_sleep 100).bind fun _ => (leads_echo _).bind fun _ => ?_
  exact (leads_detachDestroy vuid).bind fun _ => leads_echo _

theorem leads_main (n : ℕ) : dpu.asked.Leads (· = .empty) (main w n) fun _ => (· = .empty) := by
  have hmalloc : dpu.asked.Leads (· = .empty) (w.output .bdevMallocCreate) fun _ => (· = .empty) := by
    refine Leads.output _ ?_
    rintro s reply rfl
    exact ⟨trivial, rfl⟩
  exact hmalloc.bind fun output => Leads.rounds (fun i => leads_round _ (i + 1)) n

/-! ## Exits -/

theorem testNe_eq_zero {text : List Char} {n : ℤ} :
    testNe text n = 0 ↔ ∃ m, testNumber text = some m ∧ m ≠ n := by
  unfold testNe
  cases testNumber text with
  | none => simp
  | some m =>
    by_cases hm : m = n
    · simp [hm]
    · simp [hm]

/-- A text that is no number is not unexpected. -/
theorem unexpected_iff {text : List Char} : Unexpected text ↔
    ∃ m, testNumber text = some m ∧ m ≠ 5 ∧ m ≠ 6 ∧ m ≠ 7 ∧ m ≠ 8 := by
  rw [Unexpected, testNe_eq_zero, testNe_eq_zero, testNe_eq_zero, testNe_eq_zero]
  constructor
  · rintro ⟨⟨m, hm, h5⟩, ⟨_, h6', h6⟩, ⟨_, h7', h7⟩, _, h8', h8⟩
    rw [hm, Option.some.injEq] at h6' h7' h8'
    subst h6' h7' h8'
    exact ⟨m, hm, h5, h6, h7, h8⟩
  · rintro ⟨m, hm, h5, h6, h7, h8⟩
    exact ⟨⟨m, hm, h5⟩, ⟨m, hm, h6⟩, ⟨m, hm, h7⟩, m, hm, h8⟩

/-- The script has ended after a creation whose reply has another number than it knows. -/
def GaveUp (e : Exit) (log : Log) : Prop :=
  ∃ pre created printed, log = pre ++ [⟨.virtioBlkFunctionCreate, created⟩] ++
      [⟨.echo "The vhca_id is not 5 and not 6", printed⟩] ∧ e.code = printed.status ∧
    ∃ m, testNumber (vhcaId (substitution created.output)) = some m ∧ m ≠ 5 ∧ m ≠ 6 ∧ m ≠ 7 ∧ m ≠ 8

theorem exitsFor_createAttach (bdev : List Char) : ExitsFor GaveUp (createAttach w bdev) := by
  intro log
  rw [createAttach, wp_bind, wp_output, wp_bind]
  refine wp_onlyIf (fun hunexpected => ?_) fun _ => trivial
  rw [wp_bind, wp_status]
  exact ⟨log, _, _, rfl, rfl, unexpected_iff.mp hunexpected⟩

theorem exitsFor_detachDestroy (vuid : List Char) : ExitsFor GaveUp (detachDestroy w vuid) := by
  refine (exitsFor_call _).bind fun _ => (exitsFor_call _).bind fun _ => (exitsFor_call _).bind fun _ => ?_
  exact (exitsFor_call _).bind fun _ => (exitsFor_call _).bind fun _ => exitsFor_call _

theorem exitsFor_round (bdev : List Char) (i : ℕ) : ExitsFor GaveUp (round w bdev i) := by
  refine (exitsFor_call _).bind fun _ => (exitsFor_createAttach bdev).bind fun vuid => ?_
  refine (exitsFor_call _).bind fun _ => (exitsFor_call _).bind fun _ => (exitsFor_call _).bind fun _ => ?_
  exact (exitsFor_detachDestroy vuid).bind fun _ => exitsFor_call _

/-- A part of the state that a kind of commands sets when they are granted. -/
theorem part_of_granted {β : Type} {about : Command → Bool} (part : Dpu → β)
    (hother : ∀ s (r : Ran Command), about r.command = false → part (s.grant r) = part s)
    (habout : ∀ s t (r : Ran Command), about r.command = true → part (Dpu.grant s r) = part (Dpu.grant t r))
    (h : LastGranted about log) : part (dpu.state log) = part (dpu.asked.state log) := by
  refine part_asked part (fun r => part (Dpu.empty.grant r)) (fun s r hr => ?_) (fun s r hr hstatus => ?_) h
  · show part (if r.reply.status = 0 then s.grant r else s) = part s
    by_cases hstatus : r.reply.status = 0
    · rw [if_pos hstatus, hother s r hr]
    · rw [if_neg hstatus]
  · show part (if r.reply.status = 0 then s.grant r else s) = _
    rw [if_pos hstatus]
    exact habout s .empty r hr

theorem function_of_granted (h : LastGranted aboutFunction log) :
    (dpu.state log).function = (dpu.asked.state log).function := by
  refine part_of_granted Dpu.function (fun s r hr => ?_) (fun s t r hr => ?_) h
  · obtain ⟨c, reply⟩ := r
    cases c with
    | virtioBlkFunctionCreate => cases hr
    | virtioBlkFunctionDestroy vuid => cases hr
    | _ => rfl
  · obtain ⟨c, reply⟩ := r
    cases c with
    | virtioBlkFunctionCreate => rfl
    | virtioBlkFunctionDestroy vuid => rfl
    | _ => cases hr

theorem controller_of_granted (h : LastGranted aboutController log) :
    (dpu.state log).controller = (dpu.asked.state log).controller := by
  refine part_of_granted Dpu.controller (fun s r hr => ?_) (fun s t r hr => ?_) h
  · obtain ⟨c, reply⟩ := r
    cases c with
    | virtioBlkControllerCreate vuid bdev => cases hr
    | virtioBlkControllerDestroy => cases hr
    | _ => rfl
  · obtain ⟨c, reply⟩ := r
    cases c with
    | virtioBlkControllerCreate vuid bdev => rfl
    | virtioBlkControllerDestroy => rfl
    | _ => cases hr

theorem backing_of_granted (h : LastGranted aboutBacking log) :
    (dpu.state log).backing = (dpu.asked.state log).backing := by
  refine part_of_granted Dpu.backing (fun s r hr => ?_) (fun s t r hr => ?_) h
  · obtain ⟨c, reply⟩ := r
    cases c with
    | virtioBlkControllerCreate vuid bdev => cases hr
    | virtioBlkControllerBdevDetach => cases hr
    | virtioBlkControllerBdevAttach => cases hr
    | virtioBlkControllerDestroy => cases hr
    | _ => rfl
  · obtain ⟨c, reply⟩ := r
    cases c with
    | virtioBlkControllerCreate vuid bdev => rfl
    | virtioBlkControllerBdevDetach => rfl
    | virtioBlkControllerBdevAttach => rfl
    | virtioBlkControllerDestroy => rfl
    | _ => cases hr

theorem plugged_of_granted (h : LastGranted aboutPlug log) :
    (dpu.state log).plugged = (dpu.asked.state log).plugged := by
  refine part_of_granted Dpu.plugged (fun s r hr => ?_) (fun s t r hr => ?_) h
  · obtain ⟨c, reply⟩ := r
    cases c with
    | virtioBlkControllerHotplug => cases hr
    | virtioBlkControllerHotunplug => cases hr
    | _ => rfl
  · obtain ⟨c, reply⟩ := r
    cases c with
    | virtioBlkControllerHotplug => rfl
    | virtioBlkControllerHotunplug => rfl
    | _ => cases hr

/-- Where no refusal stands, there is what was asked for. -/
theorem state_of_settled (h : Settled log) : dpu.state log = dpu.asked.state log := by
  have hfunction := function_of_granted h.function
  have hcontroller := controller_of_granted h.controller
  have hbacking := backing_of_granted h.backing
  have hplugged := plugged_of_granted h.plug
  cases hs : dpu.state log
  cases ht : dpu.asked.state log
  rw [hs, ht] at hfunction hcontroller hbacking hplugged
  exact Dpu.mk.injEq .. ▸ ⟨hfunction, hcontroller, hbacking, hplugged⟩

/-- The line in which a text is printed again has its words, set apart by single blanks. -/
theorem echo_cons_cons (v v' : List Char) (ws : List (List Char)) :
    echo (v :: v' :: ws) = v ++ ' ' :: echo (v' :: ws) := by
  simp [echo]

theorem echo_append_cons {v s : List Char} {ws : List (List Char)} :
    ∃ t, echo ((v ++ s) :: ws) = v ++ t := by
  cases ws with
  | nil => exact ⟨s, by simp [echo]⟩
  | cons v' ws => exact ⟨s ++ ' ' :: echo (v' :: ws), by simp [echo]⟩

/-- A text without blanks is its own first word. -/
theorem words_getD_zero {v : List Char} (h : ∀ c ∈ v, isBlank c = false) : (words v).getD 0 [] = v := by
  cases v with
  | nil => rfl
  | cons c v =>
    rw [words_word ⟨by simp, h⟩]
    rfl

theorem takeWhile_bne {pre : List Char} {d : Char} (h : d ∉ pre) (post : List Char) :
    (pre ++ post).takeWhile (fun c => c != d) = pre ++ post.takeWhile fun c => c != d :=
  List.takeWhile_append_of_pos fun _ hc => bne_iff_ne.mpr fun heq => h (heq ▸ hc)

/-- However the reply to a creation is laid out: if its words begin with a bracket, a key, a number with a
comma, a key, and a name between quotes, then the script reads the number and the name. -/
theorem reply_read {info opening key id key' vuid tail : List Char} {more : List (List Char)}
    (hwords : words info =
      opening :: key :: (id ++ [',']) :: key' :: ('"' :: vuid ++ '"' :: tail) :: more)
    (hopening : ',' ∉ opening) (hkey : ',' ∉ key) (hid : ',' ∉ id) (hkey' : ',' ∉ key')
    (hvuid : ',' ∉ vuid) (hquote : '"' ∉ vuid) : vhcaId info = id ∧ vuidOf info = vuid := by
  have hall : ∀ v ∈ words info, IsWord v := fun v hv => isWord_of_mem_words hv
  have hsplit : '"' :: vuid ++ '"' :: tail = '"' :: vuid ++ ['"'] ++ tail := by simp
  rw [hsplit] at hwords
  rw [hwords] at hall
  simp only [List.forall_mem_cons] at hall
  obtain ⟨hopeningWord, hkeyWord, hidWord, hkeyWord', hnameTail, -⟩ := hall
  have hname : IsWord ('"' :: vuid ++ ['"']) :=
    ⟨by simp, fun c hc => hnameTail.noBlank c (List.mem_append_left _ hc)⟩
  -- the line up to its first comma, and from there to the end of the name
  set front := opening ++ ' ' :: (key ++ ' ' :: id) with hfront
  set second := ' ' :: (key' ++ ' ' :: ('"' :: vuid ++ ['"'])) with hsecond
  obtain ⟨t, ht⟩ : ∃ t, echo (('"' :: vuid ++ ['"'] ++ tail) :: more) = '"' :: vuid ++ ['"'] ++ t :=
    echo_append_cons
  have hline : infoLine info = front ++ ',' :: (second ++ t) := by
    rw [infoLine, hwords, echo_cons_cons, echo_cons_cons, echo_cons_cons, echo_cons_cons, ht]
    simp [hfront, hsecond]
  have hnocomma : ',' ∉ front := by simp [hfront, hopening, hkey, hid]
  have hnocomma' : ',' ∉ second := by simp [hsecond, hkey', hvuid]
  constructor
  · have hbare : ∀ c ∈ id, isBlank c = false := fun c hc => hidWord.noBlank c (List.mem_append_left _ hc)
    rw [vhcaId, hline, cut_one hnocomma, awkField, hfront, words_append_cons rfl, words_append_cons rfl,
      words_word hopeningWord, words_word hkeyWord]
    exact words_getD_zero hbare
  · obtain ⟨u, rest, hu⟩ := words_word_append hname (t.takeWhile fun c => c != ',')
    have hfield : awkField 2 (second ++ t.takeWhile fun c => c != ',') = '"' :: vuid ++ ['"'] ++ u := by
      have hcut : second ++ (t.takeWhile fun c => c != ',') =
          [] ++ ' ' :: (key' ++ ' ' :: ('"' :: vuid ++ ['"'] ++ t.takeWhile fun c => c != ',')) := by
        simp [hsecond]
      rw [awkField, hcut, words_append_cons rfl, words_append_cons rfl, words_word hkeyWord', hu]
      rfl
    have hquoted : '"' :: vuid ++ ['"'] ++ u = [] ++ '"' :: (vuid ++ '"' :: u) := by simp
    rw [vuidOf, hline, cut_two_takeWhile hnocomma, takeWhile_bne hnocomma', hfield, hquoted,
      cut_two_takeWhile (by simp), takeWhile_bne hquote]
    simp

/-- A reply in three lines. -/
def threeLines : List Char :=
  "\x7b\n  \"vhca_id\": 6,\n  \"vuid\": \"VBLKS1D0F0\", \"pci_bdf\": \"01:00.2\"\n\x7d".toList

theorem reply_read_threeLines :
    vhcaId threeLines = "6".toList ∧ vuidOf threeLines = "VBLKS1D0F0".toList := by
  have hwords : words threeLines = "\x7b".toList :: "\"vhca_id\":".toList :: ("6".toList ++ [',']) ::
      "\"vuid\":".toList :: ('"' :: "VBLKS1D0F0".toList ++ '"' :: [',']) ::
      ["\"pci_bdf\":".toList, "\"01:00.2\"".toList, "\x7d".toList] := by decide
  exact reply_read hwords (by decide) (by decide) (by decide) (by decide) (by decide) (by decide)

end DcPerf.Soak.Hotplug
