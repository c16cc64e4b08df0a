import Mathlib.Data.List.Induction

/-!
# Histories

A run leaves a history, the list of what happened in it. A safety property of the run says of every
event that the events before it justify it (`Always`). Such a property is proved event by event, and
it survives on every initial part of the history.
-/

namespace DcPerf.Library

variable {α : Type}

/-- Every event of `l` meets `P` with respect to the events before it. -/
def Always (P : List α → α → Prop) (l : List α) : Prop :=
  ∀ pre e post, l = pre ++ e :: post → P pre e

variable {P Q : List α → α → Prop} {l : List α}

@[simp] theorem always_nil : Always P [] := by
  intro pre e post h
  simp at h

/-- One more event. -/
theorem always_snoc {e : α} : Always P (l ++ [e]) ↔ Always P l ∧ P l e := by
  constructor
  · intro h
    exact ⟨fun pre x post hl => h pre x (post ++ [e]) (by simp [hl]), h l e [] rfl⟩
  · rintro ⟨hl, he⟩ pre x post h
    rcases List.eq_nil_or_concat post with rfl | ⟨post', y, rfl⟩
    · obtain ⟨rfl, rfl⟩ := List.append_singleton_inj.mp h
      exact he
    · have h' : l ++ [e] = (pre ++ x :: post') ++ [y] := by simpa using h
      obtain ⟨rfl, -⟩ := List.append_singleton_inj.mp h'
      exact hl pre x post' rfl

/-- One event less, at the start. -/
theorem always_cons {e : α} : Always P (e :: l) ↔ P [] e ∧ Always (fun pre => P (e :: pre)) l := by
  constructor
  · intro h
    exact ⟨h [] e l rfl, fun pre x post hl => h (e :: pre) x post (by rw [hl]; rfl)⟩
  · rintro ⟨he, hl⟩ pre x post h
    cases pre with
    | nil =>
      obtain ⟨rfl, rfl⟩ := List.cons.inj h
      exact he
    | cons y pre =>
      obtain ⟨rfl, rfl⟩ := List.cons.inj h
      exact hl pre x post rfl

/-- Each event of a longer history only needs to be justified where it is new. -/
theorem always_append {l' : List α} (hl : Always P l)
    (h : Always (fun pre => P (l ++ pre)) l') : Always P (l ++ l') := by
  induction l' using List.reverseRecOn with
  | nil => simpa using hl
  | append_singleton l' e ih =>
    obtain ⟨hpre, he⟩ := always_snoc.mp h
    rw [← List.append_assoc]
    exact always_snoc.mpr ⟨ih hpre, he⟩

/-- What justifies an event still justifies it when more happened before. -/
def Stable (P : List α → α → Prop) : Prop := ∀ l pre e, P pre e → P (l ++ pre) e

theorem Always.append (hP : Stable P) {l' : List α} (h : Always P l) (h' : Always P l') :
    Always P (l ++ l') :=
  always_append h fun pre e post hl => hP l pre e (h' pre e post hl)

theorem Always.flatMap {β : Type} (hP : Stable P) {f : β → List α} {xs : List β}
    (h : ∀ x ∈ xs, Always P (f x)) : Always P (xs.flatMap f) := by
  induction xs with
  | nil => simp
  | cons x xs ih =>
    rw [List.flatMap_cons]
    exact (h x List.mem_cons_self).append hP (ih fun y hy => h y (List.mem_cons_of_mem x hy))

theorem Always.mono (h : Always P l) (hPQ : ∀ pre e, P pre e → Q pre e) : Always Q l :=
  fun pre e post hl => hPQ pre e (h pre e post hl)

theorem Always.and (h : Always P l) (h' : Always Q l) : Always (fun pre e => P pre e ∧ Q pre e) l :=
  fun pre e post hl => ⟨h pre e post hl, h' pre e post hl⟩

theorem filterMap_snoc {β : Type} (f : α → Option β) (l : List α) (a : α) :
    (l ++ [a]).filterMap f = l.filterMap f ++ (f a).toList := by
  rw [List.filterMap_append]
  cases h : f a <;> simp [h]

/-- A safety property of the events that `f` keeps. -/
theorem always_filterMap {β : Type} {f : α → Option β} {Q : List β → β → Prop} :
    Always Q (l.filterMap f) ↔
      Always (fun pre a => ∀ b, f a = some b → Q (pre.filterMap f) b) l := by
  induction l using List.reverseRecOn with
  | nil => simp
  | append_singleton l a ih =>
    rw [List.filterMap_append, always_snoc, ← ih]
    cases ha : f a with
    | none => simp [ha]
    | some b => simp [ha, always_snoc]

/-! ## Events after events -/

/-- Before the events with `q` come events with `q'`. -/
def Follows (q q' : α → Bool) (pre : List α) (e : α) : Prop :=
  q e = true → ∃ x ∈ pre, q' x = true

section Follows

variable {q q' : α → Bool}

theorem stable_follows (q q' : α → Bool) : Stable (Follows q q') := by
  intro l pre e h he
  obtain ⟨x, hx, hq⟩ := h he
  exact ⟨x, List.mem_append_right l hx, hq⟩

/-- The first part of a history has no events with `q`, and one with `q'` if that is needed. -/
theorem follows_append {l' : List α} (hl : ∀ x ∈ l, q x = false)
    (h : (∃ x ∈ l', q x = true) → ∃ x ∈ l, q' x = true) : Always (Follows q q') (l ++ l') := by
  refine always_append ?_ ?_
  · rintro pre x post rfl hx
    simp [hl x (by simp)] at hx
  · rintro pre x post rfl hx
    obtain ⟨y, hy, hq⟩ := h ⟨x, by simp, hx⟩
    exact ⟨y, List.mem_append_left _ hy, hq⟩

/-- Nothing happens that waits for what waits for it. -/
theorem not_of_follows_each_other (h : Always (Follows q q') l) (h' : Always (Follows q' q) l) :
    ∀ x ∈ l, q x = false ∧ q' x = false := by
  induction l using List.reverseRecOn with
  | nil => simp
  | append_singleton l e ih =>
    obtain ⟨hl, he⟩ := always_snoc.mp h
    obtain ⟨hl', he'⟩ := always_snoc.mp h'
    have hall := ih hl hl'
    intro x hx
    rcases List.mem_append.mp hx with hx | hx
    · exact hall x hx
    · rw [List.mem_singleton.mp hx]
      constructor
      · by_contra hq
        obtain ⟨y, hy, hqy⟩ := he (by simpa using hq)
        simp [(hall y hy).2] at hqy
      · by_contra hq
        obtain ⟨y, hy, hqy⟩ := he' (by simpa using hq)
        simp [(hall y hy).1] at hqy

end Follows

/-- A safety property holds on every initial part. -/
theorem Always.of_prefix {l' : List α} (h : Always P l) (hp : l' <+: l) : Always P l' := by
  obtain ⟨t, rfl⟩ := hp
  exact fun pre e post hl => h pre e (post ++ t) (by simp [hl])

/-- Safety can be checked event by event. -/
theorem always_iff_forall_lt :
    Always P l ↔ ∀ i (h : i < l.length), P (l.take i) (l.get ⟨i, h⟩) := by
  constructor
  · intro h i hi
    refine h _ _ (l.drop (i + 1)) ?_
    rw [List.get_eq_getElem, List.getElem_cons_drop, List.take_append_drop]
  · rintro h pre e post rfl
    simpa using h pre.length (by simp)

instance [∀ pre e, Decidable (P pre e)] : Decidable (Always P l) :=
  decidable_of_iff _ always_iff_forall_lt.symm

/-- An event that may not follow itself happens at most once. -/
theorem always_once_iff {p : α → Bool} :
    Always (fun pre e => p e = true → ∀ x ∈ pre, p x = false) l ↔ l.countP p ≤ 1 := by
  induction l using List.reverseRecOn with
  | nil => simp
  | append_singleton l e ih =>
    have hzero : (∀ x ∈ l, p x = false) ↔ l.countP p = 0 := by simp
    rw [always_snoc, ih, hzero, List.countP_append, List.countP_singleton]
    split
    · rename_i hpe
      constructor
      · rintro ⟨-, h⟩
        have hz := h hpe
        omega
      · intro h
        exact ⟨by omega, fun _ => by omega⟩
    · rename_i hpe
      constructor
      · rintro ⟨h, -⟩
        omega
      · intro h
        exact ⟨by omega, fun h => absurd h hpe⟩

/-- An event finds undone what it does, if and only if it happens at most once, and never where that
is done from the start. -/
theorem always_new_iff {p : α → Bool} {H : List α → Prop} {H₀ : Prop}
    (hH : Always (fun pre _ => H pre ↔ H₀ ∨ ∃ x ∈ pre, p x = true) l) :
    Always (fun pre e => p e = true → ¬H pre) l ↔
      l.countP p ≤ 1 ∧ (H₀ → ∀ e ∈ l, p e = false) := by
  rw [← always_once_iff]
  constructor
  · intro h
    refine ⟨(h.and hH).mono fun pre e ⟨hnew, hiff⟩ he x hx => ?_, fun h₀ e he => ?_⟩
    · by_contra hpx
      exact hnew he (hiff.mpr (.inr ⟨x, hx, by simpa using hpx⟩))
    · by_contra hpe
      obtain ⟨pre, post, hl⟩ := List.append_of_mem he
      exact h pre e post hl (by simpa using hpe) ((hH pre e post hl).mpr (.inl h₀))
  · rintro ⟨honce, h₀⟩ pre e post hl he hdone
    rcases (hH pre e post hl).mp hdone with h | ⟨x, hx, hpx⟩
    · have hno := h₀ h e (by simp [hl])
      rw [he] at hno
      cases hno
    · have hno := honce pre e post hl he x hx
      rw [hpx] at hno
      cases hno

/-! ## Lists that answer a history -/

section Walk

variable {β ε : Type} {f : List α → α → List β}

/-- `walk` after the elements `pre`. -/
def walkFrom (f : List α → α → List β) : List α → List α → List β
  | _, [] => []
  | pre, x :: l => f pre x ++ walkFrom f (pre ++ [x]) l

/-- What the elements of a list add one after the other, each according to those before it. -/
def walk (f : List α → α → List β) (l : List α) : List β := walkFrom f [] l

theorem walkFrom_append (pre l l' : List α) :
    walkFrom f pre (l ++ l') = walkFrom f pre l ++ walkFrom f (pre ++ l) l' := by
  induction l generalizing pre with
  | nil => simp [walkFrom]
  | cons x l ih =>
    have hrest := ih (pre ++ [x])
    rw [List.append_assoc, List.singleton_append] at hrest
    rw [List.cons_append, walkFrom, hrest, walkFrom, List.append_assoc]

@[simp] theorem walk_nil : walk f [] = [] := rfl

@[simp] theorem walk_snoc (l : List α) (x : α) : walk f (l ++ [x]) = walk f l ++ f l x := by
  unfold walk
  rw [walkFrom_append]
  simp [walkFrom]

theorem walk_prefix {l l' : List α} (h : l <+: l') : walk f l <+: walk f l' := by
  obtain ⟨t, rfl⟩ := h
  exact ⟨walkFrom f l t, by unfold walk; rw [walkFrom_append, List.nil_append]⟩

/-- An element of a walk was added by an element of the list. -/
theorem walk_split {p q : List β} {y : β} (h : walk f l = p ++ y :: q) :
    ∃ done x rest a b, l = done ++ x :: rest ∧ f done x = a ++ y :: b ∧ p = walk f done ++ a := by
  induction l using List.reverseRecOn generalizing q with
  | nil => simp at h
  | append_singleton l x ih =>
    rw [walk_snoc] at h
    rcases List.append_eq_append_iff.mp h with ⟨a, hp, hx⟩ | ⟨c, hl, hc⟩
    · exact ⟨l, x, [], a, q, rfl, hx, hp⟩
    · cases c with
      | nil =>
        rw [List.append_nil] at hl
        exact ⟨l, x, [], [], q, rfl, hc.symm, by rw [hl, List.append_nil]⟩
      | cons z c =>
        obtain ⟨rfl, -⟩ := List.cons.inj hc
        obtain ⟨done, x', rest, a, b, rfl, hf, hp⟩ := ih hl
        exact ⟨done, x', rest ++ [x], a, b, by simp, hf, hp⟩

/-- An event of a history whose projection follows a walk was added by an element of the list. -/
theorem filterMap_split {g : ε → Option β} {log pre post : List ε} {e : ε} {y : β}
    (h : log.filterMap g <+: walk f l) (hlog : log = pre ++ e :: post) (he : g e = some y) :
    ∃ done x rest a b, l = done ++ x :: rest ∧ f done x = a ++ y :: b ∧
      pre.filterMap g = walk f done ++ a := by
  obtain ⟨t, ht⟩ := h
  rw [hlog, List.filterMap_append, List.filterMap_cons_some he, List.append_assoc] at ht
  exact walk_split ht.symm

end Walk

/-! ## States as the result of a history -/

section Replay

variable {σ : Type} {f : σ → α → σ} {X : σ → Prop} {D : α → Prop}

/-- A fact that the events with `D` establish, and that no event undoes. -/
theorem foldl_iff_or (h : ∀ s e, X (f s e) ↔ X s ∨ D e) (s : σ) (l : List α) :
    X (l.foldl f s) ↔ X s ∨ ∃ e ∈ l, D e := by
  induction l generalizing s with
  | nil => simp
  | cons e l ih =>
    rw [List.foldl_cons, ih, h]
    simp [or_assoc]

/-- A fact that the events with `D` undo, and that no event establishes. -/
theorem foldl_iff_and (h : ∀ s e, X (f s e) ↔ X s ∧ ¬D e) (s : σ) (l : List α) :
    X (l.foldl f s) ↔ X s ∧ ∀ e ∈ l, ¬D e := by
  induction l generalizing s with
  | nil => simp
  | cons e l ih =>
    rw [List.foldl_cons, ih, h]
    simp [and_assoc]

end Replay

/-! ## Going on -/

/-- `l'` goes on from `l` with events that meet `P`. -/
def GoesOn (P : α → Prop) (l l' : List α) : Prop := ∃ more, l' = l ++ more ∧ ∀ e ∈ more, P e

section GoesOn

variable {P Q : α → Prop} {l l' l'' : List α}

theorem GoesOn.refl (l : List α) : GoesOn P l l := ⟨[], by simp, by simp⟩

theorem goesOn_append {more : List α} (h : ∀ e ∈ more, P e) : GoesOn P l (l ++ more) :=
  ⟨more, rfl, h⟩

theorem GoesOn.trans (h : GoesOn P l l') (h' : GoesOn P l' l'') : GoesOn P l l'' := by
  obtain ⟨more, rfl, hmore⟩ := h
  obtain ⟨more', rfl, hmore'⟩ := h'
  refine ⟨more ++ more', by rw [List.append_assoc], ?_⟩
  intro e he
  rcases List.mem_append.mp he with he | he
  · exact hmore e he
  · exact hmore' e he

theorem GoesOn.mono (h : GoesOn P l l') (hPQ : ∀ e, P e → Q e) : GoesOn Q l l' := by
  obtain ⟨more, hl', hmore⟩ := h
  exact ⟨more, hl', fun e he => hPQ e (hmore e he)⟩

/-- What is new meets `P`. -/
theorem GoesOn.of_mem (h : GoesOn P l l') {e : α} (he : e ∈ l') : e ∈ l ∨ P e := by
  obtain ⟨more, rfl, hmore⟩ := h
  exact (List.mem_append.mp he).imp_right (hmore e)

theorem GoesOn.count_le [BEq α] (h : GoesOn P l l') (e : α) : l.count e ≤ l'.count e := by
  obtain ⟨more, rfl, -⟩ := h
  exact (List.sublist_append_left l more).count_le e

theorem GoesOn.mem (h : GoesOn P l l') {e : α} (he : e ∈ l) : e ∈ l' := by
  obtain ⟨more, rfl, -⟩ := h
  exact List.mem_append_left _ he

end GoesOn

end DcPerf.Library
