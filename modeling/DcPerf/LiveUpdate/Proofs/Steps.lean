import DcPerf.Library.History
import DcPerf.LiveUpdate.Proofs.Plan

/-!
# What the steps of a run do

The rules for the primitives of the manager, and what each action of the plan may do: which commands
it sends and which part of the memory it changes. Every other proof about a run uses these rules and
not the definitions of the methods.
-/

namespace DcPerf.LiveUpdate

open DcPerf.Library

/-! ## Sessions -/

/-- A command succeeds. -/
def Session.sent (s : Session) (c : Cmd) : Session :=
  { s with log := s.log ++ [.sent c true], world := s.world.exec c.sock c.rpc }

/-- A command fails. -/
def Session.failed (s : Session) (c : Cmd) : Session :=
  { s with log := s.log ++ [.sent c false] }

/-- A query is answered, or fails. -/
def Session.asked (s : Session) (k : Sock) (script method : String) (ok : Bool) : Session :=
  { s with log := s.log ++ [.asked k script method ok] }

/-- The memory changes. -/
def Session.remember (s : Session) (f : Memory → Memory) : Session :=
  { s with mem := f s.mem, past := s.past ++ [(f s.mem, s.log)] }

section Fields

variable (s : Session) (c : Cmd) (k : Sock) (sc me : String) (ok : Bool) (f : Memory → Memory)

@[simp] theorem Session.sent_log : (s.sent c).log = s.log ++ [.sent c true] := rfl
@[simp] theorem Session.sent_mem : (s.sent c).mem = s.mem := rfl
@[simp] theorem Session.sent_world : (s.sent c).world = s.world.exec c.sock c.rpc := rfl
@[simp] theorem Session.sent_past : (s.sent c).past = s.past := rfl
@[simp] theorem Session.sent_answers : (s.sent c).answers = s.answers := rfl
@[simp] theorem Session.failed_log : (s.failed c).log = s.log ++ [.sent c false] := rfl
@[simp] theorem Session.failed_mem : (s.failed c).mem = s.mem := rfl
@[simp] theorem Session.failed_world : (s.failed c).world = s.world := rfl
@[simp] theorem Session.failed_past : (s.failed c).past = s.past := rfl
@[simp] theorem Session.failed_answers : (s.failed c).answers = s.answers := rfl
@[simp] theorem Session.asked_log : (s.asked k sc me ok).log = s.log ++ [.asked k sc me ok] := rfl
@[simp] theorem Session.asked_mem : (s.asked k sc me ok).mem = s.mem := rfl
@[simp] theorem Session.asked_world : (s.asked k sc me ok).world = s.world := rfl
@[simp] theorem Session.asked_past : (s.asked k sc me ok).past = s.past := rfl
@[simp] theorem Session.asked_answers : (s.asked k sc me ok).answers = s.answers := rfl
@[simp] theorem Session.remember_log : (s.remember f).log = s.log := rfl
@[simp] theorem Session.remember_mem : (s.remember f).mem = f s.mem := rfl
@[simp] theorem Session.remember_world : (s.remember f).world = s.world := rfl
@[simp] theorem Session.remember_past :
    (s.remember f).past = s.past ++ [(f s.mem, s.log)] := rfl
@[simp] theorem Session.remember_answers : (s.remember f).answers = s.answers := rfl

end Fields

/-! ## Views of the memory -/

/-- The bdev record and the base that the memory keeps for a bdev. -/
def Memory.known (m : Memory) (b : String) : Option (Bdev × Option String) :=
  (m.bdevDict.lookup b).map fun e => (e.info, e.base)

/-- Whether the memory keeps an NVMe-oF controller. -/
def Memory.knownBase (m : Memory) (g : String) : Bool := (m.bdevNvmfDict.lookup g).isSome

/-- `bdev_dict[b]['created']`. -/
def Memory.created (m : Memory) (b : String) : Option ℕ := (m.bdevDict.lookup b).map (·.created)

/-- `bdev_nvmf_dict[g]['created']`. -/
def Memory.baseCreated (m : Memory) (g : String) : Option ℕ :=
  (m.bdevNvmfDict.lookup g).map (·.created)

/-- `bdev_dict[b]['used']`. -/
def Memory.used (m : Memory) (b : String) : Option ℤ := (m.bdevDict.lookup b).map (·.used)

/-- `bdev_nvmf_dict[g]['used']`. -/
def Memory.baseUsed (m : Memory) (g : String) : Option ℤ := (m.bdevNvmfDict.lookup g).map (·.used)

section Views

variable (m : Memory) (b b' g g' nqn : String) (u : ℤ) (n : ℕ)

@[simp] theorem known_setNvmf (f : NvmfEntry → NvmfEntry) :
    (m.setNvmf g f).known = m.known := rfl
@[simp] theorem created_setNvmf (f : NvmfEntry → NvmfEntry) :
    (m.setNvmf g f).created = m.created := rfl
@[simp] theorem used_setNvmf (f : NvmfEntry → NvmfEntry) : (m.setNvmf g f).used = m.used := rfl
@[simp] theorem knownBase_setBdev (f : BdevEntry → BdevEntry) :
    (m.setBdev b f).knownBase = m.knownBase := rfl
@[simp] theorem baseCreated_setBdev (f : BdevEntry → BdevEntry) :
    (m.setBdev b f).baseCreated = m.baseCreated := rfl
@[simp] theorem baseUsed_setBdev (f : BdevEntry → BdevEntry) :
    (m.setBdev b f).baseUsed = m.baseUsed := rfl
@[simp] theorem hist_setBdev (f : BdevEntry → BdevEntry) :
    (m.setBdev b f).nvmeSubsysHist = m.nvmeSubsysHist := rfl
@[simp] theorem hist_setNvmf (f : NvmfEntry → NvmfEntry) :
    (m.setNvmf g f).nvmeSubsysHist = m.nvmeSubsysHist := rfl
@[simp] theorem known_setHist : (m.setHist nqn n).known = m.known := rfl
@[simp] theorem knownBase_setHist : (m.setHist nqn n).knownBase = m.knownBase := rfl
@[simp] theorem created_setHist : (m.setHist nqn n).created = m.created := rfl
@[simp] theorem baseCreated_setHist : (m.setHist nqn n).baseCreated = m.baseCreated := rfl
@[simp] theorem used_setHist : (m.setHist nqn n).used = m.used := rfl
@[simp] theorem baseUsed_setHist : (m.setHist nqn n).baseUsed = m.baseUsed := rfl

theorem lookup_setBdev (f : BdevEntry → BdevEntry) :
    (m.setBdev b f).bdevDict.lookup b' =
      if b' = b then (m.bdevDict.lookup b').map f else m.bdevDict.lookup b' :=
  Dict.lookup_modify _ _ _ _

theorem lookup_setNvmf (f : NvmfEntry → NvmfEntry) :
    (m.setNvmf g f).bdevNvmfDict.lookup g' =
      if g' = g then (m.bdevNvmfDict.lookup g').map f else m.bdevNvmfDict.lookup g' :=
  Dict.lookup_modify _ _ _ _

@[simp] theorem known_setCreated :
    (m.setBdev b fun e => { e with created := n }).known b' = m.known b' := by
  rw [Memory.known, Memory.known, lookup_setBdev]
  split <;> simp [Function.comp_def]

@[simp] theorem known_setUsed :
    (m.setBdev b fun e => { e with used := u }).known b' = m.known b' := by
  rw [Memory.known, Memory.known, lookup_setBdev]
  split <;> simp [Function.comp_def]

@[simp] theorem created_setUsed :
    (m.setBdev b fun e => { e with used := u }).created b' = m.created b' := by
  rw [Memory.created, Memory.created, lookup_setBdev]
  split <;> simp [Function.comp_def]

@[simp] theorem used_setCreated :
    (m.setBdev b fun e => { e with created := n }).used b' = m.used b' := by
  rw [Memory.used, Memory.used, lookup_setBdev]
  split <;> simp [Function.comp_def]

theorem created_setCreated :
    (m.setBdev b fun e => { e with created := n }).created b' =
      if b' = b then (m.created b').map fun _ => n else m.created b' := by
  rw [Memory.created, Memory.created, lookup_setBdev]
  split <;> simp [Function.comp_def]

theorem used_setUsed :
    (m.setBdev b fun e => { e with used := u }).used b' =
      if b' = b then (m.used b').map fun _ => u else m.used b' := by
  rw [Memory.used, Memory.used, lookup_setBdev]
  split <;> simp [Function.comp_def]

@[simp] theorem knownBase_setNvmf (f : NvmfEntry → NvmfEntry) :
    (m.setNvmf g f).knownBase g' = m.knownBase g' := by
  rw [Memory.knownBase, Memory.knownBase, lookup_setNvmf]
  split <;> simp

@[simp] theorem baseCreated_setUsed :
    (m.setNvmf g fun e => { e with used := u }).baseCreated g' = m.baseCreated g' := by
  rw [Memory.baseCreated, Memory.baseCreated, lookup_setNvmf]
  split <;> simp [Function.comp_def]

@[simp] theorem baseUsed_setCreated :
    (m.setNvmf g fun e => { e with created := n }).baseUsed g' = m.baseUsed g' := by
  rw [Memory.baseUsed, Memory.baseUsed, lookup_setNvmf]
  split <;> simp [Function.comp_def]

theorem baseCreated_setCreated :
    (m.setNvmf g fun e => { e with created := n }).baseCreated g' =
      if g' = g then (m.baseCreated g').map fun _ => n else m.baseCreated g' := by
  rw [Memory.baseCreated, Memory.baseCreated, lookup_setNvmf]
  split <;> simp [Function.comp_def]

theorem baseUsed_setUsed :
    (m.setNvmf g fun e => { e with used := u }).baseUsed g' =
      if g' = g then (m.baseUsed g').map fun _ => u else m.baseUsed g' := by
  rw [Memory.baseUsed, Memory.baseUsed, lookup_setNvmf]
  split <;> simp [Function.comp_def]

end Views

/-! ## Primitives -/

section Primitives

variable {α : Type} {s : Session} {E : Raised → Session → Prop}

/-- A command is sent: it succeeds or fails, as the answers of the session say. -/
theorem wp_sendRpc {c : Cmd} {Q : Unit → Session → Prop} :
    wp (sendRpc c) Q E s ↔ (s.answers s.log.length = true → Q () (s.sent c)) ∧
      (s.answers s.log.length = false → E .rpcFailed (s.failed c)) := by
  unfold wp sendRpc
  cases s.answers s.log.length with
  | true => simp [Session.sent]
  | false => simp [Session.failed]

/-- A query is sent. -/
theorem wp_sendRecvRpc {k : Sock} {script method : String} {reply : World → α}
    {Q : α → Session → Prop} :
    wp (sendRecvRpc k script method reply) Q E s ↔
      (s.answers s.log.length = true → Q (reply s.world) (s.asked k script method true)) ∧
      (s.answers s.log.length = false → E .rpcFailed (s.asked k script method false)) := by
  unfold wp sendRecvRpc
  cases s.answers s.log.length with
  | true => simp [Session.asked]
  | false => simp [Session.asked]

@[simp] theorem wp_assign {f : Memory → Memory} {Q : Unit → Session → Prop} :
    wp (assign f) Q E s ↔ Q () (s.remember f) := Iff.rfl

/-- A lookup returns what is there, or raises `KeyError`. -/
theorem wp_item {o : Option α} {Q : α → Session → Prop} :
    wp (item o) Q E s ↔ (∀ a, o = some a → Q a s) ∧ (o = none → E .keyError s) := by
  cases o with
  | none => simp [item]
  | some a => simp [item]

end Primitives

/-! ## Which commands an action sends, and what it changes -/

/-- The commands of `create_bdev`. -/
inductive IsCreateBdevCmd : Cmd → Prop where
  | attach (base trtype adrfam traddr trsvcid subnqn : String) :
    IsCreateBdevCmd (bdevNvmeAttachControllerCmd base trtype adrfam traddr trsvcid subnqn)
  | null (info : Bdev) : IsCreateBdevCmd (bdevNullCreateCmd info)
  | malloc (info : Bdev) : IsCreateBdevCmd (bdevMallocCreateCmd info)

/-- The commands of `destroy_bdev`. -/
inductive IsDestroyBdevCmd : Cmd → Prop where
  | detach (base : String) : IsDestroyBdevCmd (bdevNvmeDetachControllerCmd base)
  | null (info : Bdev) : IsDestroyBdevCmd (bdevNullDeleteCmd info)
  | malloc (info : Bdev) : IsDestroyBdevCmd (bdevMallocDeleteCmd info)

/-- The commands that an action may send. -/
def Action.Sends : Action → Cmd → Prop
  | .send c, c' => c' = c
  | .create _, c' => IsCreateBdevCmd c'
  | .release c _, c' => c' = c ∨ IsDestroyBdevCmd c'
  | .subsys _, c' => ∃ subsys, c' = createNvmeSubsysCmd subsys
  | .ns ctrl n, c' => c' = createNvmeNamespaceCmd ctrl n
  | .missing, _ => False

/-- The relations `R` and `R'` allow every primitive that the action is made of. -/
structure Admits (R R' : Session → Session → Prop) (a : Action) : Prop where
  composes : Composes R R'
  send : ∀ c, a.Sends c → Respects R R' (sendRpc c)
  ask : ∀ {α : Type} k script method (reply : World → α),
    Respects R R' (sendRecvRpc k script method reply)
  created : ∀ b, a = .create b → (∀ b, Respects R R' (setBdev b fun e => { e with created := 1 })) ∧
    ∀ g, Respects R R' (setNvmf g fun e => { e with created := 1 })
  used : ∀ c b, a = .release c b → (∀ b u, Respects R R' (setBdev b fun e => { e with used := u })) ∧
    ∀ g u, Respects R R' (setNvmf g fun e => { e with used := u })
  hist : ∀ nqn, a = .subsys nqn →
    Respects R R' (setHist nqn 1)

section Frame

variable {R R' : Session → Session → Prop}

theorem respects_assign {f : Memory → Memory} (h : ∀ s : Session, R s (s.remember f)) :
    Respects R R' (assign f) := fun s => wp_assign.mpr (h s)

theorem respects_item {α : Type} (hR : Composes R R') (o : Option α) : Respects R R' (item o) := by
  cases o with
  | none => exact Respects.throw hR _
  | some a => exact Respects.pure hR a

theorem respects_bdevItem (hR : Composes R R') (b : String) : Respects R R' (bdevItem b) :=
  Respects.bind hR (Respects.get hR) fun _ => respects_item hR _

theorem respects_nvmfItem (hR : Composes R R') (g : String) : Respects R R' (nvmfItem g) :=
  Respects.bind hR (Respects.get hR) fun _ => respects_item hR _

theorem respects_createBdev {b : String} (h : Admits R R' (.create b)) :
    Respects R R' (createBdev b) := by
  have hR := h.composes
  obtain ⟨hbdev, hnvmf⟩ := h.created b rfl
  have hit {α : Type} (o : Option α) := respects_item hR o
  refine Respects.bind hR (respects_bdevItem hR b) fun entry => ?_
  refine Respects.ite (Respects.pure hR ()) (Respects.ite ?_ ?_)
  · refine Respects.bind hR (hit _) fun base => ?_
    refine Respects.bind hR (respects_nvmfItem hR base) fun nvmf => ?_
    refine Respects.ite (hbdev b) ?_
    refine Respects.bind hR (hit _) fun trtype => Respects.bind hR (hit _) fun adrfam => ?_
    refine Respects.bind hR (hit _) fun traddr => Respects.bind hR (hit _) fun trsvcid => ?_
    refine Respects.bind hR (hit _) fun subnqn => ?_
    refine Respects.bind hR (h.send _ (.attach ..)) fun _ => ?_
    exact Respects.bind hR (hnvmf base) fun _ => hbdev b
  · refine Respects.bind hR ?_ fun _ => hbdev b
    exact Respects.ite (h.send _ (.null _)) (Respects.ite (h.send _ (.malloc _)) (Respects.pure hR _))

theorem respects_destroyBdev {c : Cmd} {b : String} (h : Admits R R' (.release c b)) :
    Respects R R' (destroyBdev b) := by
  have hR := h.composes
  obtain ⟨hbdev, hnvmf⟩ := h.used c b rfl
  refine Respects.bind hR (respects_bdevItem hR b) fun entry => ?_
  refine Respects.bind hR (hbdev b _) fun _ => ?_
  refine Respects.ite (Respects.pure hR ()) (Respects.ite ?_ ?_)
  · refine Respects.bind hR (respects_item hR _) fun base => ?_
    refine Respects.bind hR (respects_nvmfItem hR base) fun nvmf => ?_
    refine Respects.bind hR (hnvmf base _) fun _ => ?_
    exact Respects.ite (Respects.pure hR ()) (h.send _ (.inr (.detach _)))
  · refine Respects.ite (h.send _ (.inr (.null _))) ?_
    exact Respects.ite (h.send _ (.inr (.malloc _))) (Respects.pure hR ())

/-- An action does what its primitives do. -/
theorem respects_perform (self : Manager) {a : Action} (h : Admits R R' a) :
    Respects R R' (perform self a) := by
  have hR := h.composes
  cases a with
  | send c => exact h.send c rfl
  | create b => exact respects_createBdev h
  | release c b => exact Respects.bind hR (h.send c (.inl rfl)) fun _ => respects_destroyBdev h
  | subsys nqn =>
    refine Respects.bind hR (Respects.bind hR (Respects.get hR) fun _ => respects_item hR _) ?_
    refine fun hist => Respects.ite ?_ (Respects.pure hR ())
    refine Respects.bind hR (respects_item hR _) fun subsys => ?_
    refine Respects.bind hR (Respects.bind hR (h.ask _ _ _ _) fun _ => Respects.pure hR _) fun found => ?_
    refine Respects.bind hR ?_ fun _ => h.hist nqn rfl
    exact Respects.ite (h.send _ ⟨subsys, rfl⟩) (Respects.pure hR ())
  | ns ctrl ns =>
    refine Respects.bind hR (Respects.bind hR (h.ask _ _ _ _) fun _ => Respects.pure hR _) fun found => ?_
    exact Respects.ite (h.send _ rfl) (Respects.pure hR ())
  | missing => exact Respects.throw hR _

end Frame

end DcPerf.LiveUpdate
