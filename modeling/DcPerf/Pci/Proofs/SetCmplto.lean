import DcPerf.Pci.SetCmplto
import Mathlib.Data.Nat.Bitwise

/-!
# What `set_cmplto.sh` writes

Until the write every call is a read, so an exit leaves the port as it was; at the write the checks
before it have established that the port supports what is asked; after it only DevCtl2 is read, and
compared with what was asked.
-/

namespace DcPerf.Pci.SetCmplto

open DcPerf.Library DcPerf.Pci

variable {host : Host} {bdf : String} {request : Request} {port : Port} {s : State} {reg : Reg}

/-! ## Register fields -/

theorem value_lt (port : Port) (reg : Reg) : port.value reg < 16 ^ reg.digits := by
  cases reg with
  | pcieCap => exact port.pcieCap.isLt
  | devCap2 => exact port.devCap2.isLt
  | devCtl2 => exact port.devCtl2.isLt

theorem digits_le (reg : Reg) : reg.digits ≤ 16 := by cases reg <;> decide

theorem and_fifteen (n : ℕ) : n &&& 0x0f = n % 16 := Nat.and_two_pow_sub_one_eq_mod n 4

theorem and_sixteen_ne_zero (n : ℕ) : n &&& 0x10 ≠ 0 ↔ n.testBit 4 = true := by
  have h := Nat.and_two_pow n 4
  rw [show 2 ^ 4 = 0x10 from rfl] at h
  rw [h]
  cases n.testBit 4 <;> simp

/-- Every code of the table fits into the four bits of the timeout value. -/
theorem code_lt {entry : TimeoutCode} (h : entry ∈ timeoutCodes) : entry.code < 16 := by
  have hall : ∀ entry ∈ timeoutCodes, entry.code < 16 := by decide
  exact hall entry h

/-- Only the default range needs no support. -/
theorem code_eq_zero {entry : TimeoutCode} (h : entry ∈ timeoutCodes)
    (hr : entry.requiredRange = 0) : entry.code = 0 := by
  have hall : ∀ entry ∈ timeoutCodes, entry.requiredRange = 0 → entry.code = 0 := by decide
  exact hall entry h hr

/-- The masked comparison of the script says whether a value has what was asked. -/
theorem met_iff (request : Request) (n : ℕ) :
    request.Met n ↔ n &&& request.mask = request.value := by
  cases request with
  | disable =>
    show n.testBit 4 = true ↔ n &&& 0x10 = 0x10
    have h := Nat.and_two_pow n 4
    rw [show 2 ^ 4 = 0x10 from rfl] at h
    rw [h]
    cases n.testBit 4 <;> simp
  | code entry hentry =>
    show n % 32 = entry.code ∧ n.testBit 4 = false ↔ n &&& 0x1f = entry.code
    have hmod : n &&& 0x1f = n % 32 := Nat.and_two_pow_sub_one_eq_mod n 5
    rw [hmod]
    refine ⟨fun h => h.1, fun h => ⟨h, ?_⟩⟩
    have hbit : (n % 2 ^ 5).testBit 4 = false := by
      apply Nat.testBit_lt_two_pow
      have := code_lt hentry
      omega
    rw [Nat.testBit_mod_two_pow] at hbit
    simpa using hbit

/-- The mask of a request is made of the bits that the request owns. -/
theorem mask_bit (request : Request) {i : ℕ} (h : ¬ request.Owns i) :
    (BitVec.ofNat 16 request.mask).getLsbD i = false := by
  rw [BitVec.getLsbD_ofNat]
  cases request with
  | disable =>
    have hi : i ≠ 4 := h
    have hbit : Nat.testBit (2 ^ 4) i = decide (4 = i) := Nat.testBit_two_pow
    show (decide (i < 16) && Nat.testBit (2 ^ 4) i) = false
    rw [hbit]
    simp [Ne.symm hi]
  | code entry hentry =>
    have hi : ¬ i < 5 := h
    have hbit : Nat.testBit (2 ^ 5 - 1) i = decide (i < 5) := Nat.testBit_two_pow_sub_one 5 i
    show (decide (i < 16) && Nat.testBit (2 ^ 5 - 1) i) = false
    rw [hbit]
    simp [hi]

theorem maskedWrite_bit (old value mask : BitVec 16) {i : ℕ} (h : mask.getLsbD i = false) :
    (maskedWrite old value mask).getLsbD i = old.getLsbD i := by
  unfold maskedWrite
  by_cases hi : i < 16
  · rw [BitVec.getLsbD_or, BitVec.getLsbD_and, BitVec.getLsbD_and, BitVec.getLsbD_not, h]
    simp [hi]
  · rw [BitVec.getLsbD_of_ge _ i (by omega), BitVec.getLsbD_of_ge _ i (by omega)]

/-! ## Reads -/

/-- So far the script has only read. -/
structure Unwritten (port : Port) (s : State) : Prop where
  port : s.port = port
  log : OnlyReads s.log

theorem OnlyReads.snoc {log : List Call} (h : OnlyReads log) (output : Option (List Char)) :
    OnlyReads (log ++ [.read reg output]) := by
  intro c hc
  rw [List.mem_append, List.mem_singleton] at hc
  rcases hc with hc | rfl
  · exact h c hc
  · rfl

theorem Unwritten.afterRead (h : Unwritten port s) (reg : Reg) (output : Option (List Char)) :
    Unwritten port (s.afterRead reg output) :=
  ⟨h.port, h.log.snoc output⟩

/-- Text that passes the check of a read is the value of the register. -/
theorem wp_readReg (failed unexpected : String) {E : Exit → State → Prop}
    (hE : ∀ e output, e.code = 1 → E e (s.afterRead reg output)) :
    wp (readReg host reg failed unexpected)
      (fun text t => t = s.afterRead reg (some text) ∧ isHexWord reg.digits text = true ∧
        hexValue text = s.port.value reg) E s := by
  unfold readReg readConfig
  rw [wp_bind, wp_bind, wp_get, wp_bind, wp_set, wp_pure]
  cases hr : host.reads s.log reg with
  | fails => exact hE _ _ rfl
  | value =>
    show wp (orExit _ _ >>= _) _ _ _
    rw [wp_bind]
    apply wp_orExit
    · intro hword
      exact ⟨rfl, hword, hexValue_hexText (digits_le reg) (value_lt s.port reg)⟩
    · intro _
      exact hE _ _ rfl
  | malformed text h =>
    show wp (orExit _ _ >>= _) _ _ _
    rw [wp_bind]
    apply wp_orExit
    · intro hword
      rw [h] at hword
      exact absurd hword (by decide)
    · intro _
      exact hE _ _ rfl

/-! ## Up to the write -/

/-- An exit with an error before the write. -/
def FailedBefore (port : Port) (e : Exit) (s : State) : Prop := e.code ≠ 0 ∧ Unwritten port s

theorem failedBefore_die (msg : String) (h : Unwritten port s) : FailedBefore port (die msg) s :=
  ⟨Nat.one_ne_zero, h⟩

theorem failedBefore_read (h : Unwritten port s) {e : Exit} {output : Option (List Char)}
    (he : e.code = 1) : FailedBefore port e (s.afterRead reg output) := by
  refine ⟨?_, h.afterRead _ output⟩
  rw [he]
  exact Nat.one_ne_zero

theorem wp_checkTools (h : Unwritten port s) :
    wp (checkTools host) (fun _ t => t = s) (FailedBefore port) s := by
  unfold checkTools
  rw [wp_bind]
  apply wp_orExit _ fun _ => failedBefore_die _ h
  intro _
  rw [wp_bind]
  apply wp_orExit _ fun _ => failedBefore_die _ h
  intro _
  exact wp_orExit (fun _ => rfl) fun _ => failedBefore_die _ h

/-- The port type and version that the script accepts. -/
theorem wp_checkCapability (h : Unwritten port s) :
    wp (checkCapability host bdf)
      (fun _ t => Unwritten port t ∧ (port.pcieCap.extractLsb' 4 4).toNat = 4 ∧
        2 ≤ (port.pcieCap.extractLsb' 0 4).toNat) (FailedBefore port) s := by
  unfold checkCapability
  rw [wp_bind]
  refine wp_mono (wp_readReg _ _ fun e output he => failedBefore_read h he) ?_ fun _ _ h => h
  rintro text t ⟨rfl, -, hvalue⟩
  have ht := h.afterRead .pcieCap (some text)
  have hcap : hexValue text = port.pcieCap.toNat := by
    rw [hvalue, h.port]
    rfl
  rw [wp_bind]
  apply wp_orExit _ fun _ => failedBefore_die _ ht
  intro htype
  apply wp_orExit _ fun _ => failedBefore_die _ ht
  intro hversion
  have htype' := of_decide_eq_true htype
  have hversion' := of_decide_eq_true hversion
  rw [hcap, and_fifteen] at htype' hversion'
  refine ⟨ht, ?_, ?_⟩
  · rw [BitVec.extractLsb'_toNat]
    exact htype'
  · rw [BitVec.extractLsb'_toNat]
    exact hversion'

/-- The support for a request that the script checks. -/
theorem wp_checkRequest {E : Exit → State → Prop}
    (hE : ∀ msg, E (die msg) s) :
    wp (checkRequest bdf port.devCap2.toNat request)
      (fun _ t => t = s ∧ match request with
        | .disable => port.devCap2.getLsbD 4 = true
        | .code entry _ => entry.code = 0 ∨ port.devCap2.toNat &&& entry.requiredRange ≠ 0) E s := by
  cases request with
  | disable =>
    apply wp_orExit _ fun _ => hE _
    intro hbit
    exact ⟨rfl, (and_sixteen_ne_zero _).mp (of_decide_eq_true hbit)⟩
  | code entry hentry =>
    apply wp_orExit _ fun _ => hE _
    intro hrange
    refine ⟨rfl, ?_⟩
    rcases Bool.or_eq_true_iff.mp hrange with hzero | hbit
    · exact .inl (code_eq_zero hentry (of_decide_eq_true hzero))
    · right
      intro hnone
      apply of_decide_eq_true hbit
      rw [Nat.and_assoc, Nat.and_comm 0x0f, ← Nat.and_assoc, hnone, Nat.zero_and]

theorem wp_checkDevCap2 (h : Unwritten port s) :
    wp (checkDevCap2 host bdf request)
      (fun _ t => Unwritten port t ∧ (port.devCap2.extractLsb' 0 4).toNat ∈ [0, 1, 2, 3, 6, 7, 14, 15] ∧
        match request with
        | .disable => port.devCap2.getLsbD 4 = true
        | .code entry _ => entry.code = 0 ∨ port.devCap2.toNat &&& entry.requiredRange ≠ 0)
      (FailedBefore port) s := by
  unfold checkDevCap2
  rw [wp_bind]
  refine wp_mono (wp_readReg _ _ fun e output he => failedBefore_read h he) ?_ fun _ _ h => h
  rintro text t ⟨rfl, -, hvalue⟩
  have ht := h.afterRead .devCap2 (some text)
  have hcap : hexValue text = port.devCap2.toNat := by
    rw [hvalue, h.port]
    rfl
  rw [hcap, wp_bind]
  apply wp_orExit _ fun _ => failedBefore_die _ ht
  intro hrange
  refine wp_mono (wp_checkRequest fun msg => failedBefore_die msg ht) ?_ fun _ _ h => h
  rintro _ t ⟨rfl, hrequest⟩
  refine ⟨ht, ?_, hrequest⟩
  unfold isRangeEncoding at hrange
  rw [and_fifteen] at hrange
  rw [BitVec.extractLsb'_toNat]
  exact of_decide_eq_true hrange

/-! ## The write and the verification -/

/-- What holds at every point of the script after its arguments were read. -/
structure Kept (port : Port) (request : Request) (s : State) : Prop where
  once : s.log.countP Call.isWrite ≤ 1
  supported : (∃ c ∈ s.log, c.isWrite = true) → Supports port request
  owned : ∀ i, ¬ request.Owns i → s.port.devCtl2.getLsbD i = port.devCtl2.getLsbD i
  unwritten : OnlyReads s.log → s.port = port

theorem OnlyReads.countP {log : List Call} (h : OnlyReads log) : log.countP Call.isWrite = 0 := by
  rw [List.countP_eq_zero]
  intro c hc
  rw [h c hc]
  decide

theorem Unwritten.kept (h : Unwritten port s) : Kept port request s := by
  refine ⟨by rw [h.log.countP]; exact Nat.zero_le 1, ?_, ?_, fun _ => h.port⟩
  · rintro ⟨c, hc, hw⟩
    rw [h.log c hc] at hw
    exact absurd hw (by decide)
  · intro i _
    rw [h.port]

theorem Kept.afterRead (h : Kept port request s) (reg : Reg) (output : Option (List Char)) :
    Kept port request (s.afterRead reg output) := by
  have hread : (Call.read reg output).isWrite = false := rfl
  refine ⟨?_, ?_, h.owned, ?_⟩
  · show (s.log ++ [Call.read reg output]).countP Call.isWrite ≤ 1
    rw [List.countP_append]
    simpa [hread] using h.once
  · rintro ⟨c, hc, hw⟩
    rcases List.mem_append.mp hc with hc | hc
    · exact h.supported ⟨c, hc, hw⟩
    · rw [List.mem_singleton.mp hc, hread] at hw
      exact absurd hw (by decide)
  · intro hlog
    exact h.unwritten fun c hc => hlog c (List.mem_append_left _ hc)

/-- An exit with an error at any point. -/
def Failed (port : Port) (request : Request) (e : Exit) (s : State) : Prop :=
  e.code ≠ 0 ∧ Kept port request s

theorem FailedBefore.failed {e : Exit} (h : FailedBefore port e s) : Failed port request e s :=
  ⟨h.1, h.2.kept⟩

/-- The only write, to a port that supports what is asked. -/
theorem Unwritten.afterWrite (h : Unwritten port s) (hsup : Supports port request) (ok : Bool) :
    Kept port request
      (s.afterWrite (BitVec.ofNat 16 request.value) (BitVec.ofNat 16 request.mask) ok) := by
  refine ⟨?_, fun _ => hsup, ?_, ?_⟩
  · show (s.log ++ [Call.write _ _ ok]).countP Call.isWrite ≤ 1
    rw [List.countP_append, h.log.countP, Nat.zero_add]
    exact List.countP_le_length
  · intro i hi
    rw [← h.port]
    cases ok with
    | true => exact maskedWrite_bit _ _ _ (mask_bit request hi)
    | false => rfl
  · intro hlog
    have hw := hlog (.write _ _ ok) (List.mem_append_right _ (List.mem_singleton.mpr rfl))
    exact absurd hw (by simp [Call.isWrite])

theorem wp_updateDevCtl2 {beforeHex : List Char} (h : Unwritten port s)
    (hsup : Supports port request) :
    wp (updateDevCtl2 host bdf request beforeHex) (fun _ t => Kept port request t)
      (Failed port request) s := by
  apply wp_onlyIf
  · intro _
    unfold writeDevCtl2
    rw [wp_bind, wp_bind, wp_get, wp_bind, wp_set, wp_pure]
    apply wp_orExit
    · intro _
      exact h.afterWrite hsup _
    · intro _
      exact ⟨Nat.one_ne_zero, h.afterWrite hsup _⟩
  · intro _
    exact h.kept

/-- What is asked is read back, and the register has it. -/
theorem wp_verifyDevCtl2 (h : Kept port request s) :
    wp (verifyDevCtl2 host bdf request)
      (fun _ t => Kept port request t ∧ ReadBack request t.log ∧ request.Met t.port.devCtl2.toNat)
      (Failed port request) s := by
  unfold verifyDevCtl2
  rw [wp_bind]
  refine wp_mono (wp_readReg _ _ ?_) ?_ fun _ _ h => h
  · intro e output he
    exact ⟨by rw [he]; exact Nat.one_ne_zero, h.afterRead _ output⟩
  · rintro text t ⟨rfl, hword, hvalue⟩
    have ht := h.afterRead .devCtl2 (some text)
    apply wp_orExit _ fun _ => ⟨Nat.one_ne_zero, ht⟩
    intro hmask
    have hmet : request.Met (hexValue text) := (met_iff _ _).mpr (of_decide_eq_true hmask)
    refine ⟨ht, ⟨text, ?_, hword, hmet⟩, ?_⟩
    · show (s.log ++ [_]).getLast? = _
      simp
    · rw [hvalue] at hmet
      exact hmet

/-- The script after its arguments were read. -/
theorem wp_setTimeout (h : Unwritten port s) :
    wp (setTimeout host bdf request)
      (fun _ t => Kept port request t ∧ ReadBack request t.log ∧ request.Met t.port.devCtl2.toNat)
      (Failed port request) s := by
  unfold setTimeout
  rw [wp_bind]
  refine wp_mono (wp_checkTools h) ?_ fun _ _ h => h.failed
  rintro _ t rfl
  rw [wp_bind]
  refine wp_mono (wp_checkCapability h) ?_ fun _ _ h => h.failed
  rintro _ t ⟨ht, htype, hversion⟩
  rw [wp_bind]
  refine wp_mono (wp_checkDevCap2 ht) ?_ fun _ _ h => h.failed
  rintro _ u ⟨hu, hencoding, hrequest⟩
  rw [wp_bind]
  refine wp_mono (wp_readReg _ _ fun e output he => (failedBefore_read hu he).failed) ?_
    fun _ _ h => h
  rintro text v ⟨rfl, -, -⟩
  have hv := hu.afterRead .devCtl2 (some text)
  rw [wp_bind]
  refine wp_mono (wp_updateDevCtl2 hv ⟨htype, hversion, hencoding, hrequest⟩) ?_ fun _ _ h => h
  intro _ x hx
  exact wp_verifyDevCtl2 hx

/-- A port that has what is asked is only read. -/
theorem wp_setTimeout_met (h : Unwritten port s) (hmet : request.Met port.devCtl2.toNat) :
    wp (setTimeout host bdf request) (fun _ t => Unwritten port t) (fun _ t => Unwritten port t)
      s := by
  unfold setTimeout
  rw [wp_bind]
  refine wp_mono (wp_checkTools h) ?_ fun _ _ h => h.2
  rintro _ t rfl
  rw [wp_bind]
  refine wp_mono (wp_checkCapability h) ?_ fun _ _ h => h.2
  rintro _ t ⟨ht, -, -⟩
  rw [wp_bind]
  refine wp_mono (wp_checkDevCap2 ht) ?_ fun _ _ h => h.2
  rintro _ u ⟨hu, -, -⟩
  rw [wp_bind]
  refine wp_mono (wp_readReg _ _ fun e output _ => hu.afterRead _ output) ?_ fun _ _ h => h
  rintro text v ⟨rfl, -, hvalue⟩
  have hv := hu.afterRead .devCtl2 (some text)
  have hmask : hexValue text &&& request.mask = request.value := by
    rw [hvalue, hu.port]
    exact (met_iff _ _).mp hmet
  rw [wp_bind]
  apply wp_onlyIf
  · intro hne
    exact absurd hmask hne
  · intro _
    unfold verifyDevCtl2
    rw [wp_bind]
    refine wp_mono (wp_readReg _ _ fun e output _ => hv.afterRead _ output) ?_ fun _ _ h => h
    rintro text' x ⟨rfl, -, -⟩
    have hx := hv.afterRead .devCtl2 (some text')
    exact wp_orExit (fun _ => hx) fun _ => hx

/-! ## Arguments -/

theorem checkBdf_error {rawBdf : List Char} {e : Exit} (h : checkBdf rawBdf = .error e) :
    e.code = 2 := by
  unfold checkBdf at h
  dsimp only at h
  split at h
  · exact absurd h (by simp)
  · rw [← Except.error.inj h]
    rfl

theorem readCode_error {rawCode : List Char} {e : Exit} (h : readCode rawCode = .error e) :
    e.code = 2 := by
  unfold readCode at h
  dsimp only at h
  split at h
  · rw [← Except.error.inj h]
    rfl
  · split at h
    · exact absurd h (by simp)
    · rw [← Except.error.inj h]
      rfl

/-- Only a call for help ends the script with success before it looks at a port. -/
theorem asksHelp_of_error {args : List String} {e : Exit} (h : parseArgs args = .error e)
    (he : e.code = 0) : AsksHelp args := by
  have husage : ∀ {msg : String}, (usageError msg).code ≠ 0 := fun {_} => Nat.succ_ne_zero 1
  have hbind : ∀ {α β : Type} {m : Except Exit α} {f : α → Except Exit β},
      (m >>= f) = .error e → m = .error e ∨ ∃ a, f a = .error e := by
    intro α β m f hm
    cases m with
    | error e' =>
      have he' : e' = e := Except.error.inj hm
      rw [he']
      exact .inl rfl
    | ok a => exact .inr ⟨a, hm⟩
  unfold parseArgs at h
  split at h
  · exact .inl rfl
  · exact .inr rfl
  · exfalso
    split at h
    · split at h
      · rcases hbind h with hb | ⟨bdf, hb⟩
        · rw [checkBdf_error hb] at he
          exact absurd he (by decide)
        · exact absurd hb (by simp [pure, Except.pure])
      · rw [← Except.error.inj h] at he
        exact husage he
    · split at h
      · rw [← Except.error.inj h] at he
        exact husage he
      · split at h
        · split at h
          · rw [← Except.error.inj h] at he
            exact husage he
          · rcases hbind h with hb | ⟨bdf, hb⟩
            · rw [checkBdf_error hb] at he
              exact absurd he (by decide)
            · rcases hbind hb with hc | ⟨request, hc⟩
              · rw [readCode_error hc] at he
                exact absurd he (by decide)
              · exact absurd hc (by simp [pure, Except.pure])
        · rw [← Except.error.inj h] at he
          exact husage he
  · rw [← Except.error.inj h] at he
    exact absurd he husage

/-! ## Runs -/

theorem unwritten_start : Unwritten port { port := port, log := [] } :=
  ⟨rfl, by simp [OnlyReads]⟩

theorem asks_unique {args : List String} {request' : Request} (h : Asks args request)
    (h' : Asks args request') : request = request' := by
  obtain ⟨bdf, h⟩ := h
  obtain ⟨bdf', h'⟩ := h'
  rw [h] at h'
  exact (Prod.mk.inj (Except.ok.inj h')).2

theorem Kept.careful {args : List String} (hasks : Asks args request) (h : Kept port request s) :
    Careful args port s := by
  refine ⟨h.once, fun hw => ⟨request, hasks, h.supported hw⟩, ?_, h.unwritten⟩
  intro request' hasks' i hi
  rw [asks_unique hasks' hasks] at hi
  exact h.owned i hi

/-- Asking a port for what it has writes nothing. -/
theorem onlyReads_of_met {args : List String} (hasks : Asks args request)
    (hmet : request.Met port.devCtl2.toNat) (host : Host) :
    OnlyReads (finalState (run host args port)).log := by
  obtain ⟨bdf, hargs⟩ := hasks
  unfold run main
  rw [hargs]
  exact (wp_finalState (wp_setTimeout_met unwritten_start hmet)).log

/-- Whatever the calls of `setpci` answer, DevCtl2 is written at most once, only on a port that
supports what is asked and only in the bits that the request owns; and a run that succeeds has shown
help without calling `setpci` or has read back what was asked. -/
theorem run_careful (host : Host) (args : List String) (port : Port) :
    Careful args port (finalState (run host args port)) ∧
      (exitCode (run host args port) = 0 →
        AsksHelp args ∧ (finalState (run host args port)).log = [] ∨
          Accomplished args (finalState (run host args port))) := by
  unfold run main
  cases hargs : parseArgs args with
  | error e =>
    refine ⟨⟨Nat.zero_le 1, by rintro ⟨c, hc, -⟩; exact absurd hc (List.not_mem_nil), ?_, fun _ => rfl⟩,
      fun he => .inl ⟨asksHelp_of_error hargs he, rfl⟩⟩
    intro request _ i _
    rfl
  | ok asked =>
    obtain ⟨bdf, request⟩ := asked
    have hasks : Asks args request := ⟨bdf, hargs⟩
    have hwp : wp (setTimeout host (String.ofList bdf) request) _ _ ⟨port, []⟩ :=
      wp_setTimeout unwritten_start
    constructor
    · exact (wp_finalState (wp_mono hwp (fun _ _ h => h.1) fun _ _ h => h.2)).careful hasks
    · intro h0
      right
      refine wp_exitCode (wp_mono hwp ?_ ?_) h0
      · rintro _ t ⟨-, hread, hmet⟩
        exact ⟨request, hasks, hread, fun host' => onlyReads_of_met hasks hmet host'⟩
      · intro e t h hcode
        exact absurd hcode h.1

/-- A host on which every call succeeds. -/
def willingHost : Host where
  hasSetpci := true
  euid := 0
  hasSudo := true
  sudoWorks := true
  reads := fun _ _ => .value
  writes := fun _ => true

/-- A root port of version 2 that supports every range and can disable the timeout. -/
def rootPort : Port where
  pcieCap := 0x0142#16
  devCap2 := 0x0000001f#32
  devCtl2 := 0x0400#16

/-- A call for help succeeds without reading anything back. -/
theorem help_not_accomplished :
    exitCode (run willingHost ["-h", "3a:00.0"] rootPort) = 0 ∧
      ¬ Accomplished ["-h", "3a:00.0"] (finalState (run willingHost ["-h", "3a:00.0"] rootPort)) := by
  refine ⟨rfl, ?_⟩
  rintro ⟨request, ⟨bdf, hargs⟩, -⟩
  exact absurd hargs (by simp [parseArgs])

/-- Code 6 is set, and the bits above the timeout field are left alone. -/
example : (finalState (run willingHost ["3a:00.0", "0x6"] rootPort)).port.devCtl2 = 0x0406#16 := by
  decide +kernel

end DcPerf.Pci.SetCmplto
