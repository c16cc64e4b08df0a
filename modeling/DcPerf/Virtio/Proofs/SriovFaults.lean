import DcPerf.Virtio.Proofs.SriovStub
import DcPerf.Virtio.SriovFaults

/-!
# What the script leaves behind, whatever fails

A write either ends the script or goes on in the state after it. What a part of the script cannot
change is carried through it by the writes that it can make.
-/

namespace DcPerf.Virtio.SriovStub

open DcPerf.Library DcPerf.Pci

variable {host : Host} {bdf currentDriver : String} {currentVfs vfCount : ℤ} {s : State} {w : Write}

/-! ## What the parts of the script cannot change -/

section Respects

variable {R : State → State → Prop} (hR : Composes R R)
include hR

theorem respects_getCurrentDriver : Respects R R (getCurrentDriver host bdf) := by
  refine .bind hR (.get hR) fun s => ?_
  cases s.pf.driver with
  | none => exact .pure hR ""
  | some driver => exact .bind hR (Respects.orExit hR _ _) fun _ => .pure hR driver

theorem respects_readNumVfs (msg : String) : Respects R R (readNumVfs host msg) :=
  .bind hR (.get hR) fun s => .bind hR (Respects.orExit hR _ _) fun _ => .pure hR s.pf.numVfs

/-- The update of the count writes to two files. -/
theorem respects_updateVfs (hauto : Respects R R (writeSysfs host bdf (.autoprobe 0)))
    (hzero : Respects R R (writeSysfs host bdf (.numVfs 0)))
    (hcount : Respects R R (writeSysfs host bdf (.numVfs vfCount))) :
    Respects R R (updateVfs host bdf currentVfs vfCount) :=
  .bind hR hauto fun _ => Respects.onlyIf hR (.bind hR (Respects.onlyIf hR hzero) fun _ =>
    Respects.onlyIf hR hcount)

theorem respects_checkVf (vf : VirtFn) : Respects R R (checkVf host vf) := by
  refine .bind hR (Respects.orExit hR _ _) fun _ => ?_
  cases vf.driver with
  | none => exact .pure hR ()
  | some driver => exact .bind hR (Respects.orExit hR _ _) fun _ => .throw hR _

/-- The readback writes nothing. -/
theorem respects_verify : Respects R R (verify host bdf vfCount) :=
  .bind hR (respects_readNumVfs hR _) fun _ => .bind hR (Respects.orExit hR _ _) fun _ =>
    .bind hR (.get hR) fun s => .bind hR (Respects.orExit hR _ _) fun _ =>
      .bind hR (Respects.orExit hR _ _) fun _ => Respects.forM hR (respects_checkVf hR) s.pf.vfLinks

theorem respects_changeDriver (hw : ∀ w, (∀ value, w = .numVfs value → value = 0) →
    Respects R R (writeSysfs host bdf w)) :
    Respects R R (changeDriver host bdf currentDriver currentVfs) := by
  have hunbind : Respects R R (unbindCurrent host bdf currentDriver) :=
    Respects.onlyIf hR (.bind hR (.get hR) fun _ => .bind hR (Respects.orExit hR _ _) fun _ =>
      hw _ (by simp))
  exact .bind hR (Respects.onlyIf hR (hw _ (by simp))) fun _ => .bind hR (hw _ (by simp)) fun _ =>
    .bind hR hunbind fun _ => .bind hR (hw _ (by simp)) fun _ =>
      .bind hR (respects_getCurrentDriver hR) fun _ => .bind hR (Respects.orExit hR _ _) fun _ =>
        .bind hR (hw _ (by simp)) fun _ => .pure hR 0

/-- The script sets the number of virtual functions to 0 and to the count, and to no other value. -/
theorem respects_configure (hw : ∀ w, (∀ value, w = .numVfs value → value = 0 ∨ value = vfCount) →
    Respects R R (writeSysfs host bdf w)) : Respects R R (configure host bdf vfCount) :=
  .bind hR (respects_getCurrentDriver hR) fun _ => .bind hR (respects_readNumVfs hR _) fun _ =>
    .bind hR (.ite (respects_changeDriver hR fun w h => hw w fun value hv => .inl (h value hv))
      (.pure hR _)) fun _ =>
        .bind hR (respects_updateVfs hR (hw _ (by simp)) (hw _ (by simp)) (hw _ (by simp)))
          fun _ => respects_verify hR

end Respects

/-! ## The checks -/

/-- The last check compares the count as the shell has read it. -/
theorem returned_checkDevice :
    Returned (checkDevice host bdf vfCount s) ↔
      host.reachesRange = true ∧ vfCount ≤ host.totalVfs.toNat := by
  unfold checkDevice Host.reachesRange
  rw [returned_orExit_bind, returned_orExit_bind, returned_orExit_bind, returned_orExit_bind,
    returned_orExit_bind, returned_orExit_bind, returned_orExit]
  simp [and_assoc]

/-- The checks leave everything as it is, and let a count pass that is in range as the shell has read
it. -/
theorem wp_prepare {args : List String} :
    wp (prepare host args)
      (fun p t => t = s ∧ ∃ rawBdf vfCountRaw, args = [rawBdf, vfCountRaw] ∧
        p.2 = decimal vfCountRaw.toList ∧ p.2 ≤ host.totalVfs.toNat)
      (fun _ t => t = s) s := by
  unfold prepare
  apply wp_ite
  · intro _
    exact wp_ite (fun _ => rfl) fun _ => rfl
  · intro _
    split
    · rename_i rawBdf vfCountRaw _
      unfold readBdf
      rw [wp_bind, wp_bind]
      apply wp_orExit
      · intro _
        rw [wp_pure, wp_bind]
        apply wp_orExit
        · intro _
          rw [wp_bind]
          refine wp_mono (wp_and_of_returned (checksOnly_checkHost s) fun h =>
            (returned_checkDevice.mp (returned_orExit_bind.mp h).2.of_bind).2) ?_ fun _ _ h => h.1
          rintro _ t ⟨rfl, hrange⟩
          exact ⟨rfl, rawBdf, vfCountRaw, rfl, rfl, hrange⟩
        · intro _
          rfl
      · intro _
        rfl
    · rfl

/-! ## Exits under a fixed condition -/

section Gone

/-- The override is not the target driver. -/
def Gone (s : State) : Prop := s.pf.driverOverride ≠ targetDriver

variable {α : Type} {Q : α → State → Prop}

/-- Parts that leave the override alone. -/
def Keeps (s t : State) : Prop := t.pf.driverOverride = s.pf.driverOverride

theorem composes_keeps : Composes Keeps Keeps :=
  ⟨fun _ => rfl, fun h h' => h'.trans h, fun h h' => h'.trans h, fun h => h⟩

theorem wp_of_keeps {m : Script State α} (hm : Respects Keeps Keeps m) :
    wp m (fun _ => Gone) (fun _ => Gone) s ↔ Gone s := by
  have hkeeps : Keeps s (finalState (m s)) := wp_finalState (hm s)
  rw [wp_iff_finalState, Gone, Gone, hkeeps]

/-- A write goes on in the state after it, or leaves the device as it is. -/
theorem wp_writeSysfs_cases {Q : Unit → State → Prop} {E : Exit → State → Prop} :
    wp (writeSysfs host bdf w) Q E s ↔
      if host.writes s.log w then Q () (s.after host w)
      else E (die s!"failed to write '{(w.describe bdf).1}' to {(w.describe bdf).2}")
        { pf := s.pf, log := s.log ++ [⟨w, false, s.pf⟩] } := by
  unfold writeSysfs
  rw [wp_bind, wp_get, wp_bind, wp_set]
  cases hok : host.writes s.log w <;> rfl

/-- The override is as it was when the write fails. -/
theorem wp_writeSysfs_gone {Q : Unit → State → Prop} :
    wp (writeSysfs host bdf w) Q (fun _ => Gone) s ↔
      if host.writes s.log w = true then Q () (s.after host w) else Gone s :=
  wp_writeSysfs_cases

/-- The current driver, when there is one, has to be resolved. -/
theorem wp_getCurrentDriver_gone {Q : String → State → Prop} :
    wp (getCurrentDriver host bdf) Q (fun _ => Gone) s ↔
      if s.pf.driver = none ∨ host.resolvesDriver s.log = true then Q s.pf.driverName s
      else Gone s := by
  unfold getCurrentDriver Pf.driverName
  rw [wp_bind, wp_get]
  cases s.pf.driver with
  | none => simp
  | some driver =>
    show wp (orExit _ _ >>= _) _ _ _ ↔ _
    rw [wp_bind, wp_orExit_iff]
    simp

theorem wp_readNumVfs_gone {Q : ℤ → State → Prop} (msg : String) :
    wp (readNumVfs host msg) Q (fun _ => Gone) s ↔
      if host.readsNumVfs s.log = true then Q s.pf.numVfs s else Gone s := by
  unfold readNumVfs
  rw [wp_bind, wp_get, wp_bind, wp_orExit_iff]
  rfl

/-! ## The change of the driver -/

theorem gone_removed (h : Gone s) : Gone (host.removed s) := by
  unfold Host.removed
  split <;> exact h

theorem not_gone_overridden : ¬Gone (host.overridden s) := fun h => h rfl

theorem not_gone_unbound : ¬Gone (host.unbound s) := by
  have hset : ¬Gone (host.overridden s) := not_gone_overridden
  unfold Host.unbound
  split
  · exact hset
  · exact hset

theorem not_gone_bound : ¬Gone (host.bound s) := not_gone_unbound

theorem gone_cleared (t : State) : Gone (t.after host (.driverOverride "")) := by
  have hne : "" ≠ targetDriver := by decide
  exact hne

theorem wp_removeVfs_gone {Q : Unit → State → Prop} (h : Gone s) :
    wp (onlyIf (s.pf.numVfs ≠ 0) (writeSysfs host bdf (.numVfs 0))) Q (fun _ => Gone) s ↔
      ((s.pf.numVfs ≠ 0 → host.writes s.log (.numVfs 0) = true) → Q () (host.removed s)) := by
  unfold onlyIf Host.removed
  split
  · rename_i hn
    rw [wp_writeSysfs_gone, ite_iff_imp h]
    simp [hn]
  · rename_i hn
    simp [hn]

theorem wp_unbindCurrent_set {Q : Unit → State → Prop} :
    wp (unbindCurrent host bdf s.pf.driverName) Q (fun _ => Gone) (host.overridden s) ↔
      (s.pf.driverName ≠ "" → host.unbindWritable (host.overridden s).log = true ∧
        host.writes (host.overridden s).log .unbind = true) ∧ Q () (host.unbound s) := by
  unfold unbindCurrent onlyIf Host.unbound
  split
  · rename_i hd
    rw [wp_bind, wp_get, wp_bind, wp_orExit_iff, ite_iff_and not_gone_overridden,
      wp_writeSysfs_gone, ite_iff_and not_gone_overridden, ← and_assoc]
    simp [hd]
  · rename_i hd
    simp [hd]

/-- From the override on, everything has to succeed. -/
theorem wp_changeDriver_iff (hclear : ∀ log, host.writes log (.driverOverride "") = true)
    (h : Gone s) :
    wp (changeDriver host bdf s.pf.driverName s.pf.numVfs) (fun _ => Gone) (fun _ => Gone) s ↔
      ((s.pf.numVfs ≠ 0 → host.writes s.log (.numVfs 0) = true) →
        host.writes (host.removed s).log (.driverOverride targetDriver) = true →
          ClearsOverride host s) := by
  unfold changeDriver
  rw [wp_bind, wp_removeVfs_gone h]
  refine imp_congr_right fun _ => ?_
  rw [wp_bind, wp_writeSysfs_gone, ite_iff_imp (gone_removed h)]
  refine imp_congr_right fun _ => ?_
  show wp _ _ _ (host.overridden s) ↔ _
  rw [wp_bind, wp_unbindCurrent_set, wp_bind, wp_writeSysfs_gone, ite_iff_and not_gone_unbound]
  show _ ∧ _ ∧ wp _ _ _ (host.bound s) ↔ _
  rw [wp_bind, wp_getCurrentDriver_gone, ite_iff_and not_gone_bound, wp_bind, wp_orExit_iff,
    ite_iff_and not_gone_bound, wp_bind, wp_writeSysfs_gone, if_pos (hclear _), wp_pure]
  have hdriver : (host.bound s).pf.driver = host.boundTo (host.unbound s).log := rfl
  have htarget : (host.bound s).pf.driverName = targetDriver ↔
      host.boundTo (host.unbound s).log = some targetDriver := by
    unfold Pf.driverName
    rw [hdriver]
    cases host.boundTo (host.unbound s).log with
    | none => simp [targetDriver]
    | some driver => simp
  rw [hdriver, decide_eq_true_iff, htarget]
  constructor
  · rintro ⟨hunbound, hbound, hresolved, hto, -⟩
    exact ⟨hunbound, hbound, hresolved.resolve_left (by simp [hto]), hto⟩
  · rintro ⟨hunbound, hbound, hresolved, hto⟩
    exact ⟨hunbound, hbound, .inr hresolved, hto, gone_cleared _⟩

/-! ## The whole script -/

theorem keeps_write (hw : ∀ value, w ≠ .driverOverride value) :
    Respects Keeps Keeps (writeSysfs host bdf w) := by
  intro t
  rw [wp_writeSysfs_cases]
  split
  · cases w with
    | driverOverride value => exact absurd rfl (hw value)
    | _ => rfl
  · rfl

/-- After the driver nothing touches the override. -/
theorem keeps_rest : Respects Keeps Keeps
    (updateVfs host bdf currentVfs vfCount >>= fun _ => verify host bdf vfCount) :=
  .bind composes_keeps
    (respects_updateVfs composes_keeps (keeps_write (by simp)) (keeps_write (by simp))
      (keeps_write (by simp)))
    fun _ => respects_verify composes_keeps

/-- From the first look at the device on, the override is gone in the end if and only if it is cleared
once it is set. -/
theorem wp_configure_iff (hclear : ∀ log, host.writes log (.driverOverride "") = true) (h : Gone s) :
    wp (configure host bdf vfCount) (fun _ => Gone) (fun _ => Gone) s ↔
      (SetsOverride host s → ClearsOverride host s) := by
  have hrest : ∀ n t, wp (updateVfs host bdf n vfCount >>= fun _ => verify host bdf vfCount)
      (fun _ => Gone) (fun _ => Gone) t ↔ Gone t := fun n t => wp_of_keeps keeps_rest
  unfold configure
  rw [wp_bind, wp_getCurrentDriver_gone, ite_iff_imp h, wp_bind, wp_readNumVfs_gone, ite_iff_imp h,
    wp_bind, wp_congr fun n t => hrest n t]
  unfold ensureDriver
  by_cases hother : s.pf.driverName ≠ targetDriver
  · rw [if_pos hother, wp_changeDriver_iff hclear h]
    constructor
    · rintro hconf ⟨-, hresolved, hread, hremoved, hset⟩
      exact hconf hresolved hread hremoved hset
    · intro hconf hresolved hread hremoved hset
      exact hconf ⟨hother, hresolved, hread, hremoved, hset⟩
  · rw [if_neg hother, wp_pure]
    constructor
    · rintro - ⟨hset, -⟩
      exact absurd hset hother
    · intro _ _ _
      exact h

end Gone

/-- The script is its checks and then the configuration. -/
theorem main_eq (host : Host) (args : List String) :
    main host args = prepare host args >>= fun p => configure host p.1 p.2 := by
  unfold main prepare bindStub
  by_cases hhelp : args.head? = some "-h" ∨ args.head? = some "--help"
  · rw [if_pos hhelp, if_pos hhelp]
    split <;> rfl
  · rw [if_neg hhelp, if_neg hhelp]
    rcases args with - | ⟨rawBdf, - | ⟨vfCountRaw, - | ⟨arg, args⟩⟩⟩
    · rfl
    · rfl
    · simp only [bind_assoc, pure_bind]
    · rfl

/-- The override outlives the run exactly when the script sets it and then something fails before it is
cleared. -/
theorem override_gone_iff (host : Host) (args : List String) (pf : Pf)
    (hclear : ∀ log, host.writes log (.driverOverride "") = true)
    (hpf : pf.driverOverride ≠ targetDriver) :
    (finalState (run host args pf)).pf.driverOverride ≠ targetDriver ↔
      (Returned (prepare host args { pf := pf, log := [] }) →
        SetsOverride host { pf := pf, log := [] } → ClearsOverride host { pf := pf, log := [] }) := by
  have hgone : Gone { pf := pf, log := [] } := hpf
  have hprepare : wp (prepare host args) (fun _ t => t = { pf := pf, log := [] })
      (fun _ t => t = { pf := pf, log := [] }) { pf := pf, log := [] } :=
    wp_mono wp_prepare (fun _ _ h => h.1) fun _ _ h => h
  refine (wp_iff_finalState (m := main host args) (P := Gone)).symm.trans ?_
  rw [main_eq, wp_bind]
  exact wp_iff_of_unchanged hprepare (fun _ => hgone) fun _ => wp_configure_iff hclear hgone

/-! ## A bind that fails -/

/-- A host on which the bind fails and everything else succeeds. -/
def failingBind : Host := { willingHost with writes := fun _ w => w != .bind }

theorem override_cleared_willing :
    (finalState (run willingHost ["3d:00.0", "4"] boundPf)).pf.driverOverride ≠ targetDriver := by
  refine (override_gone_iff _ _ _ (fun _ => rfl) (by decide)).mpr fun _ _ => ?_
  exact ⟨fun _ => ⟨rfl, rfl⟩, rfl, rfl, rfl⟩

/-- The script ends with an error, and the override is still there. -/
theorem override_left_behind :
    boundPf.driverOverride ≠ targetDriver ∧
      (∀ log, failingBind.writes log (.driverOverride "") = true) ∧
      (finalState (run failingBind ["3d:00.0", "4"] boundPf)).pf.driverOverride = targetDriver :=
  ⟨by decide, fun _ => rfl, by decide +kernel⟩

/-! ## The count -/

section Count

variable {rawBdf vfCountRaw : String} {pf : Pf}

/-- The writes that were made set the number of virtual functions to 0 or to `count`. -/
def CountsOnly (count : ℤ) (s : State) : Prop :=
  ∀ e ∈ s.log, ∀ value, e.write = .numVfs value → value = 0 ∨ value = count

theorem composes_countsOnly (count : ℤ) : Composes
    (fun s t => CountsOnly count s → CountsOnly count t)
    (fun s t => CountsOnly count s → CountsOnly count t) :=
  ⟨fun _ h => h, fun h h' hs => h' (h hs), fun h h' hs => h' (h hs), fun h => h⟩

theorem countsOnly_snoc {count : ℤ} {pf : Pf} {ok : Bool} (h : CountsOnly count s)
    (hw : ∀ value, w = .numVfs value → value = 0 ∨ value = count) (pf' : Pf) :
    CountsOnly count ⟨pf', s.log ++ [⟨w, ok, pf⟩]⟩ := by
  intro e he
  rcases List.mem_append.mp he with he | he
  · exact h e he
  · rw [List.mem_singleton.mp he]
    exact hw

theorem countsOnly_configure :
    wp (configure host bdf vfCount) (fun _ t => CountsOnly vfCount s → CountsOnly vfCount t)
      (fun _ t => CountsOnly vfCount s → CountsOnly vfCount t) s := by
  refine respects_configure (composes_countsOnly vfCount) (fun w hw t => ?_) s
  rw [wp_writeSysfs_cases]
  split
  · exact fun h => countsOnly_snoc h hw _
  · exact fun h => countsOnly_snoc h hw _

/-- The writes of a run set the number to 0 or to the count as the shell has read it, and there are none
when that is out of range. -/
theorem wp_main_count :
    wp (main host [rawBdf, vfCountRaw])
      (fun _ t => CountsOnly (decimal vfCountRaw.toList) t ∧
        (t.log = [] ∨ decimal vfCountRaw.toList ≤ host.totalVfs.toNat))
      (fun _ t => CountsOnly (decimal vfCountRaw.toList) t ∧
        (t.log = [] ∨ decimal vfCountRaw.toList ≤ host.totalVfs.toNat))
      { pf := pf, log := [] } := by
  have hnil : CountsOnly (decimal vfCountRaw.toList) { pf := pf, log := [] } := by simp [CountsOnly]
  rw [main_eq, wp_bind]
  refine wp_mono wp_prepare ?_ ?_
  · rintro ⟨bdf, count⟩ t ⟨rfl, _, _, hargs, hcount, hrange⟩
    obtain ⟨rfl, rfl⟩ : _ = rawBdf ∧ _ = vfCountRaw := by simpa using hargs.symm
    obtain rfl : count = decimal _ := hcount
    exact wp_mono countsOnly_configure (fun _ _ h => ⟨h hnil, .inr hrange⟩)
      fun _ _ h => ⟨h hnil, .inr hrange⟩
  · rintro e t rfl
    exact ⟨hnil, .inl rfl⟩

/-- A count is read as in range if its residue is in range or negative. -/
theorem decimal_le_iff {text : List Char} (hd : isDigits text = true) (total : BitVec 16) :
    decimal text ≤ total.toNat ↔
      valueIn 10 text % 2 ^ 64 ≤ total.toNat ∨ 2 ^ 63 ≤ valueIn 10 text % 2 ^ 64 := by
  have htotal := total.isLt
  unfold decimal
  rw [numeralIn_eq (digitValue_of_isDigits hd), Option.getD_some, BitVec.toInt_eq_toNat_cond,
    BitVec.toNat_ofNat]
  split
  · omega
  · omega

/-- The count of a run is the one asked for, if and only if the digits denote a number in range or one
that the shell reads as a number out of range. -/
theorem countAsAsked_iff (host : Host) (rawBdf vfCountRaw : String) (pf : Pf)
    (hd : isDigits vfCountRaw.toList = true) (hr : host.reachesRange = true) :
    CountAsAsked host rawBdf vfCountRaw pf ↔
      valueIn 10 vfCountRaw.toList ≤ host.totalVfs.toNat ∨
        (host.totalVfs.toNat < valueIn 10 vfCountRaw.toList % 2 ^ 64 ∧
          valueIn 10 vfCountRaw.toList % 2 ^ 64 < 2 ^ 63) := by
  have htotal := host.totalVfs.isLt
  have hread := decimal_le_iff hd host.totalVfs
  have hpass : Returned (checkDevice host (String.ofList (canonicalBdf rawBdf.toList))
      (decimal vfCountRaw.toList) { pf := pf, log := [] }) ↔
      decimal vfCountRaw.toList ≤ host.totalVfs.toNat := by
    rw [returned_checkDevice]
    simp [hr]
  have hlog : CountsOnly (decimal vfCountRaw.toList) (finalState (run host [rawBdf, vfCountRaw] pf)) ∧
      ((finalState (run host [rawBdf, vfCountRaw] pf)).log = [] ∨
        decimal vfCountRaw.toList ≤ host.totalVfs.toNat) :=
    wp_finalState (m := main host [rawBdf, vfCountRaw]) wp_main_count
  constructor
  · rintro ⟨hrange, -⟩
    rw [hpass] at hrange
    omega
  · rintro (hin | ⟨hgt, hpos⟩)
    · -- The count is read as it is.
      have hexact : decimal vfCountRaw.toList = valueIn 10 vfCountRaw.toList :=
        decimal_eq hd (by omega)
      refine ⟨by rw [hpass]; omega, ?_⟩
      intro e he value hvalue hne
      rw [← hexact]
      exact (hlog.1 e he value hvalue).resolve_left hne
    · -- It is read as a number out of range, and nothing is written.
      have hout : ¬decimal vfCountRaw.toList ≤ host.totalVfs.toNat := by omega
      refine ⟨by rw [hpass]; omega, ?_⟩
      rw [hlog.2.resolve_right hout]
      intro e he
      cases he

theorem countAsAsked_four : CountAsAsked willingHost "3d:00.0" "4" boundPf :=
  (countAsAsked_iff willingHost "3d:00.0" "4" boundPf (by decide) (by decide)).mpr
    (.inl (by decide))

/-- The number asked for is `2 ^ 64 + 4`, and 4 virtual functions are created. -/
theorem not_countAsAsked_wrapped :
    isDigits "18446744073709551620".toList = true ∧ willingHost.reachesRange = true ∧
      ¬CountAsAsked willingHost "3d:00.0" "18446744073709551620" boundPf := by
  refine ⟨by decide, by decide, ?_⟩
  intro h
  have hpass : Returned (checkDevice willingHost (String.ofList (canonicalBdf "3d:00.0".toList))
      (decimal "18446744073709551620".toList) { pf := boundPf, log := [] }) := by decide +kernel
  exact absurd (h.range.mp hpass) (by decide +kernel)

end Count

end DcPerf.Virtio.SriovStub
