import DcPerf.Virtio.SriovStub

/-!
# The order of the writes of `bind_sriovpf_pci_stub.sh`

A write has one rule. Each part of the script is verified by it: what a part relies on is what the
parts before it have read or written, and every exit in between leaves a safe log behind.
-/

namespace DcPerf.Virtio.SriovStub

open DcPerf.Library DcPerf.Pci

variable {host : Host} {bdf currentDriver : String} {currentVfs vfCount : ℤ} {s : State}

/-- What holds after an exit with an error. -/
def Failed (e : Exit) (s : State) : Prop := e.code ≠ 0 ∧ Always SafeWrite s.log

theorem failed_die (msg : String) (h : Always SafeWrite s.log) : Failed (die msg) s :=
  ⟨Nat.one_ne_zero, h⟩

/-! ## The parts of the script -/

/-- The rule of a write: it has to be safe, whether it succeeds or not. -/
theorem wp_writeSysfs {w : Write} {Q : Unit → State → Prop} (hs : Always SafeWrite s.log)
    (hw : ∀ ok, SafeWrite s.log ⟨w, ok, s.pf⟩)
    (hQ : Always SafeWrite (s.log ++ [⟨w, true, s.pf⟩]) →
      Q () ⟨host.effect s.log s.pf w, s.log ++ [⟨w, true, s.pf⟩]⟩) :
    wp (writeSysfs host bdf w) Q Failed s := by
  unfold writeSysfs
  rw [wp_bind, wp_get, wp_bind, wp_set]
  cases hok : host.writes s.log w with
  | true =>
    apply wp_orExit
    · intro _
      exact hQ (always_snoc.mpr ⟨hs, hw true⟩)
    · intro h
      simp at h
  | false =>
    apply wp_orExit
    · intro h
      simp at h
    · intro _
      exact failed_die _ (always_snoc.mpr ⟨hs, hw false⟩)

theorem safeWrite_of_ne {pre : List Event} {w : Write} {ok : Bool} {pf : Pf} (hu : w ≠ .unbind)
    (hn : ∀ value, w = .numVfs value → value = 0) : SafeWrite pre ⟨w, ok, pf⟩ :=
  ⟨fun h => absurd h hu, fun value h hv => absurd (hn value h) hv⟩

/-- The current driver is the target only if the function is bound to it. -/
theorem wp_getCurrentDriver (hs : Always SafeWrite s.log) :
    wp (getCurrentDriver host bdf)
      (fun driver t => t = s ∧ (driver = targetDriver → s.pf.driver = some targetDriver)) Failed
      s := by
  unfold getCurrentDriver
  rw [wp_bind, wp_get]
  cases hd : s.pf.driver with
  | none =>
    refine ⟨rfl, ?_⟩
    intro h
    exact absurd h (by decide)
  | some driver =>
    show wp (orExit _ _ >>= _) _ _ _
    rw [wp_bind]
    apply wp_orExit
    · intro _
      exact ⟨rfl, fun h => by rw [h]⟩
    · intro _
      exact failed_die _ hs

theorem wp_readNumVfs (msg : String) (hs : Always SafeWrite s.log) :
    wp (readNumVfs host msg) (fun n t => t = s ∧ n = s.pf.numVfs) Failed s := by
  unfold readNumVfs
  rw [wp_bind, wp_get, wp_bind]
  apply wp_orExit
  · intro _
    exact ⟨rfl, rfl⟩
  · intro _
    exact failed_die _ hs

/-- The state between two parts of the script, with the number of virtual functions and, where it is
known, the driver. -/
structure Between (numVfs : ℤ) (s : State) : Prop where
  safe : Always SafeWrite s.log
  numVfs : s.pf.numVfs = numVfs

/-- Removing the virtual functions is safe at any time. -/
theorem wp_removeVfs (hs : Between currentVfs s) :
    wp (onlyIf (currentVfs ≠ 0) (writeSysfs host bdf (.numVfs 0)))
      (fun _ t => Between 0 t ∧ t.pf.driver = s.pf.driver ∧ s.log <+: t.log) Failed s := by
  apply wp_onlyIf
  · intro _
    apply wp_writeSysfs hs.safe
    · intro ok
      apply safeWrite_of_ne (by simp)
      intro value h
      exact (Write.numVfs.inj h).symm
    · intro hlog
      exact ⟨⟨hlog, rfl⟩, rfl, List.prefix_append _ _⟩
  · intro h
    have h0 : currentVfs = 0 := by omega
    exact ⟨⟨hs.safe, by rw [hs.numVfs, h0]⟩, rfl, List.prefix_refl _⟩

/-- Without virtual functions the current driver may be unbound. -/
theorem wp_unbindCurrent (hs : Between 0 s) :
    wp (unbindCurrent host bdf currentDriver) (fun _ t => Between 0 t) Failed s := by
  apply wp_onlyIf
  · intro _
    rw [wp_bind, wp_get, wp_bind]
    apply wp_orExit
    · intro _
      apply wp_writeSysfs hs.safe
      · intro ok
        exact ⟨fun _ => hs.numVfs, fun value h => absurd h (by simp)⟩
      · intro hlog
        exact ⟨hlog, hs.numVfs⟩
    · intro _
      exact failed_die _ hs.safe
  · intro _
    exact hs

/-- A write that neither unbinds nor creates virtual functions. -/
theorem wp_plainWrite {w : Write} {n : ℤ} (hs : Between n s) (hu : w ≠ .unbind)
    (hn : ∀ value, w ≠ .numVfs value) :
    wp (writeSysfs host bdf w)
      (fun _ t => Between n t ∧ t.pf = host.effect s.log s.pf w ∧ t.log = s.log ++ [⟨w, true, s.pf⟩])
      Failed s := by
  apply wp_writeSysfs hs.safe
  · intro ok
    exact safeWrite_of_ne hu fun value h => absurd h (hn value)
  · intro hlog
    refine ⟨⟨hlog, ?_⟩, rfl, rfl⟩
    rw [← hs.numVfs]
    cases w with
    | numVfs value => exact absurd rfl (hn value)
    | autoprobe value => rfl
    | driverOverride value => rfl
    | unbind => rfl
    | bind => rfl

/-- The driver is changed without virtual functions; afterwards the function has the target driver
and no virtual functions. -/
theorem wp_changeDriver (hs : Between currentVfs s) :
    wp (changeDriver host bdf currentDriver currentVfs)
      (fun n t => Between n t ∧ t.pf.driver = some targetDriver) Failed s := by
  unfold changeDriver
  rw [wp_bind]
  refine wp_mono (wp_removeVfs hs) ?_ fun _ _ h => h
  rintro _ t ⟨ht, -, -⟩
  rw [wp_bind]
  refine wp_mono (wp_plainWrite ht (by simp) (by simp)) ?_ fun _ _ h => h
  rintro _ u ⟨hu, -, -⟩
  rw [wp_bind]
  refine wp_mono (wp_unbindCurrent hu) ?_ fun _ _ h => h
  intro _ v hv
  rw [wp_bind]
  refine wp_mono (wp_plainWrite hv (by simp) (by simp)) ?_ fun _ _ h => h
  rintro _ x ⟨hx, -, -⟩
  rw [wp_bind]
  refine wp_mono (wp_getCurrentDriver hx.safe) ?_ fun _ _ h => h
  rintro driver _ ⟨rfl, hdriver⟩
  rw [wp_bind]
  apply wp_orExit
  · intro heq
    rw [wp_bind]
    refine wp_mono (wp_plainWrite hx (by simp) (by simp)) ?_ fun _ _ h => h
    rintro _ y ⟨hy, hpf, -⟩
    refine ⟨hy, ?_⟩
    rw [hpf]
    exact hdriver (of_decide_eq_true heq)
  · intro _
    exact failed_die _ hx.safe

theorem wp_ensureDriver (hs : Between currentVfs s)
    (hd : currentDriver = targetDriver → s.pf.driver = some targetDriver) :
    wp (ensureDriver host bdf currentDriver currentVfs)
      (fun n t => Between n t ∧ t.pf.driver = some targetDriver) Failed s := by
  apply wp_ite
  · intro _
    exact wp_changeDriver hs
  · intro h
    exact ⟨hs, hd (not_not.mp h)⟩

/-- Virtual functions are created on the target driver, after autoprobing was switched off and the
old ones were removed. -/
theorem wp_updateVfs (hs : Between currentVfs s) (hd : s.pf.driver = some targetDriver) :
    wp (updateVfs host bdf currentVfs vfCount)
      (fun _ t => Always SafeWrite t.log ∧ t.pf.driver = some targetDriver) Failed s := by
  unfold updateVfs
  rw [wp_bind]
  refine wp_mono (wp_plainWrite hs (by simp) (by simp)) ?_ fun _ _ h => h
  rintro _ t ⟨ht, hpf, hlog⟩
  have hdt : t.pf.driver = some targetDriver := by
    rw [hpf]
    exact hd
  apply wp_onlyIf
  · intro _
    rw [wp_bind]
    refine wp_mono (wp_removeVfs ht) ?_ fun _ _ h => h
    rintro _ u ⟨hu, hdu, hpre⟩
    rw [hdt] at hdu
    apply wp_onlyIf
    · intro _
      apply wp_writeSysfs hu.safe
      · intro ok
        refine ⟨by simp, ?_⟩
        intro value _ _
        have hmem : (⟨.autoprobe 0, true, s.pf⟩ : Event) ∈ u.log := by
          apply hpre.subset
          rw [hlog]
          simp
        exact ⟨hu.numVfs, hdu, _, hmem, rfl, rfl⟩
      · intro hsafe
        exact ⟨hsafe, hdu⟩
    · intro _
      exact ⟨hu.safe, hdu⟩
  · intro _
    exact ⟨ht.safe, hdt⟩

/-! ## The readback -/

theorem wp_checkVf (vf : VirtFn) (hs : Always SafeWrite s.log) :
    wp (checkVf host vf) (fun _ t => t = s ∧ vf.driver = none) Failed s := by
  unfold checkVf
  rw [wp_bind]
  apply wp_orExit
  · intro _
    cases hd : vf.driver with
    | none => exact ⟨rfl, rfl⟩
    | some driver =>
      show wp (orExit _ _ >>= _) _ _ _
      rw [wp_bind]
      apply wp_orExit
      · intro _
        exact failed_die _ hs
      · intro _
        exact failed_die _ hs
  · intro _
    exact failed_die _ hs

/-- The readback succeeds only on a function that is configured as asked. -/
theorem wp_verify (hs : Always SafeWrite s.log) (hd : s.pf.driver = some targetDriver) (count : ℕ) :
    wp (verify host bdf count) (fun _ t => t = s ∧ Configured s.pf count) Failed s := by
  unfold verify
  rw [wp_bind]
  refine wp_mono (wp_readNumVfs _ hs) ?_ fun _ _ h => h
  rintro n t ⟨ht, hn⟩
  rw [ht, wp_bind]
  apply wp_orExit _ fun _ => failed_die _ hs
  intro hcount
  rw [wp_bind, wp_get, wp_bind]
  apply wp_orExit _ fun _ => failed_die _ hs
  intro hauto
  rw [wp_bind]
  apply wp_orExit _ fun _ => failed_die _ hs
  intro hlinks
  have hloop : wp (s.pf.vfLinks.forM (checkVf host))
      (fun _ u => u = s ∧ ∀ vf ∈ s.pf.vfLinks, vf.driver = none) Failed s := by
    apply wp_forM (I := fun (done : List VirtFn) u => u = s ∧ ∀ vf ∈ done, vf.driver = none)
    · rintro done vf rest - u ⟨rfl, hdone⟩
      refine wp_mono (wp_checkVf vf hs) ?_ fun _ _ h => h
      rintro _ v ⟨hv, hvf⟩
      refine ⟨hv, ?_⟩
      intro x hx
      rw [List.mem_append, List.mem_singleton] at hx
      rcases hx with hx | rfl
      · exact hdone x hx
      · exact hvf
    · exact ⟨rfl, by simp⟩
  refine wp_mono hloop ?_ fun _ _ h => h
  rintro _ u ⟨hu, hunbound⟩
  have hauto' : s.pf.autoprobe = 0 := of_decide_eq_true (Bool.and_eq_true_iff.mp hauto).2
  have hlinks' : (s.pf.vfLinks.length : ℤ) = count := of_decide_eq_true hlinks
  exact ⟨hu, hd, by rw [← hn]; exact of_decide_eq_true hcount, by omega, hauto', hunbound⟩

/-- The script from the first look at the device to its end. -/
theorem wp_configure (hs : s.log = []) (count : ℕ) :
    wp (configure host bdf count) (fun _ t => Always SafeWrite t.log ∧ Configured t.pf count) Failed
      s := by
  have hsafe : Always SafeWrite s.log := by
    rw [hs]
    exact always_nil
  unfold configure
  rw [wp_bind]
  refine wp_mono (wp_getCurrentDriver hsafe) ?_ fun _ _ h => h
  rintro driver t ⟨ht, hdriver⟩
  rw [ht, wp_bind]
  refine wp_mono (wp_readNumVfs _ hsafe) ?_ fun _ _ h => h
  rintro n u ⟨hu, hn⟩
  rw [hu, wp_bind]
  refine wp_mono (wp_ensureDriver ⟨hsafe, hn.symm⟩ hdriver) ?_ fun _ _ h => h
  rintro m v ⟨hv, hd⟩
  rw [wp_bind]
  refine wp_mono (wp_updateVfs hv hd) ?_ fun _ _ h => h
  rintro _ x ⟨hx, hdx⟩
  refine wp_mono (wp_verify hx hdx count) ?_ fun _ _ h => h
  rintro _ y ⟨rfl, hconf⟩
  exact ⟨hx, hconf⟩

/-! ## Before the device is changed -/

/-- A check that fails ends the script with an error, and one that succeeds changes nothing. -/
def ChecksOnly (m : Script State Unit) : Prop :=
  ∀ s : State, wp m (fun _ t => t = s) (fun e t => t = s ∧ e.code ≠ 0) s

theorem checksOnly_orExit (c : Bool) {e : Exit} (he : e.code ≠ 0) : ChecksOnly (orExit c e) := by
  intro s
  exact wp_orExit (fun _ => rfl) fun _ => ⟨rfl, he⟩

theorem ChecksOnly.bind {m : Script State Unit} {f : Unit → Script State Unit} (hm : ChecksOnly m)
    (hf : ChecksOnly (f ())) : ChecksOnly (m >>= f) := by
  intro s
  rw [wp_bind]
  refine wp_mono (hm s) ?_ fun _ _ h => h
  rintro _ t rfl
  exact hf t

theorem checksOnly_checkDevice : ChecksOnly (checkDevice host bdf vfCount) :=
  (checksOnly_orExit _ Nat.one_ne_zero).bind ((checksOnly_orExit _ Nat.one_ne_zero).bind
    ((checksOnly_orExit _ Nat.one_ne_zero).bind ((checksOnly_orExit _ Nat.one_ne_zero).bind
      ((checksOnly_orExit _ Nat.one_ne_zero).bind ((checksOnly_orExit _ Nat.one_ne_zero).bind
        (checksOnly_orExit _ Nat.one_ne_zero))))))

theorem checksOnly_checkHost : ChecksOnly (checkHost host bdf vfCount) :=
  (checksOnly_orExit _ Nat.one_ne_zero).bind (checksOnly_checkDevice.bind
    ((checksOnly_orExit _ Nat.one_ne_zero).bind ((checksOnly_orExit _ Nat.one_ne_zero).bind
      ((checksOnly_orExit _ Nat.one_ne_zero).bind (checksOnly_orExit _ Nat.one_ne_zero)))))

/-- A count of at most 65535 is the number that its digits denote. -/
theorem decimal_eq {text : List Char} (hd : isDigits text = true) (h : valueIn 10 text < 2 ^ 16) :
    decimal text = valueIn 10 text := by
  unfold decimal
  rw [numeralIn_eq (digitValue_of_isDigits hd), Option.getD_some, BitVec.toInt_eq_toNat_of_lt,
    BitVec.toNat_ofNat]
  · congr 1
    omega
  · rw [BitVec.toNat_ofNat]
    omega

/-- The script with its two arguments. -/
theorem wp_bindStub {rawBdf vfCountRaw : String} (hs : s.log = [])
    (hc : valueIn 10 vfCountRaw.toList ≤ host.totalVfs.toNat) :
    wp (bindStub host rawBdf vfCountRaw)
      (fun _ t => Always SafeWrite t.log ∧ Configured t.pf (valueIn 10 vfCountRaw.toList)) Failed
      s := by
  have hfail : ∀ {e : Exit}, e.code ≠ 0 → Failed e s := by
    intro e he
    refine ⟨he, ?_⟩
    rw [hs]
    exact always_nil
  unfold bindStub readBdf
  rw [wp_bind, wp_bind]
  apply wp_orExit _ fun _ => hfail (Nat.succ_ne_zero 1)
  intro _
  rw [wp_pure, wp_bind]
  apply wp_orExit _ fun _ => hfail (Nat.succ_ne_zero 1)
  intro hd
  rw [wp_bind]
  refine wp_mono (checksOnly_checkHost s) ?_ ?_
  · rintro _ t rfl
    have htotal := host.totalVfs.isLt
    rw [decimal_eq hd (by omega)]
    exact wp_configure hs _
  · rintro e t ⟨rfl, he⟩
    exact hfail he

/-- With a count that the function supports, the script writes in a safe order, whatever fails, and
exits with success only on a function that is configured as asked. -/
theorem run_safe (host : Host) (rawBdf vfCountRaw : String) (pf : Pf)
    (hc : valueIn 10 vfCountRaw.toList ≤ host.totalVfs.toNat) :
    Always SafeWrite (finalState (run host [rawBdf, vfCountRaw] pf)).log ∧
      (exitCode (run host [rawBdf, vfCountRaw] pf) = 0 →
        Configured (finalState (run host [rawBdf, vfCountRaw] pf)).pf
          (valueIn 10 vfCountRaw.toList)) := by
  have hmain : wp (main host [rawBdf, vfCountRaw])
      (fun _ t => Always SafeWrite t.log ∧ Configured t.pf (valueIn 10 vfCountRaw.toList)) Failed
      { pf := pf, log := [] } := by
    unfold main
    apply wp_ite
    · -- Help takes no second argument.
      intro _
      rw [if_neg (by simp)]
      exact ⟨Nat.succ_ne_zero 1, always_nil⟩
    · intro _
      exact wp_bindStub rfl hc
  constructor
  · exact wp_finalState (wp_mono hmain (fun _ _ h => h.1) fun _ _ h => h.2)
  · intro h0
    refine wp_exitCode (wp_mono hmain (fun _ _ h => h.2) ?_) h0
    intro e t h hcode
    exact absurd hcode h.1

/-- A host on which everything succeeds and four virtual functions come up without a driver. -/
def willingHost : Host where
  euid := 0
  deviceExists := true
  isSriovPf := true
  autoprobeWritable := true
  overrideWritable := true
  totalVfs := 64#16
  readsTotalVfs := true
  hasModprobe := true
  loadsDriver := true
  driverAvailable := true
  bindWritable := true
  writes := fun _ _ => true
  boundTo := fun _ => some targetDriver
  createdVfs := fun _ => List.replicate 4 ⟨true, "0000:3d:00.1", none⟩
  resolvesDriver := fun _ => true
  unbindWritable := fun _ => true
  readsNumVfs := fun _ => true
  readsAutoprobe := fun _ => true
  resolvesVf := fun _ => true
  resolvesVfDriver := fun _ => true

/-- A physical function on its own driver, with two virtual functions. -/
def boundPf : Pf where
  driver := some "mlx5_core"
  numVfs := 2
  autoprobe := 1
  driverOverride := ""
  virtFns := List.replicate 2 ⟨true, "0000:3d:00.1", some "mlx5_core"⟩

theorem run_safe_four :
    exitCode (run willingHost ["3d:00.0", "4"] boundPf) = 0 ∧
      Always SafeWrite (finalState (run willingHost ["3d:00.0", "4"] boundPf)).log ∧
      Configured (finalState (run willingHost ["3d:00.0", "4"] boundPf)).pf 4 := by
  have hexit : exitCode (run willingHost ["3d:00.0", "4"] boundPf) = 0 := by decide +kernel
  have hsafe := run_safe willingHost "3d:00.0" "4" boundPf (by decide +kernel)
  exact ⟨hexit, hsafe.1, hsafe.2 hexit⟩

end DcPerf.Virtio.SriovStub
