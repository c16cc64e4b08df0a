import DcPerf.Library.History
import Mathlib.Logic.Function.Basic

/-!
# Calls that an observer follows

Contexts call functions and return from them. An observer follows some of the functions and notes one
value for each context: a call that is followed puts it there, and a return takes it away. What is noted
is then the value of the innermost followed call in progress, except after a return from a followed call
that was made inside another one: from there to the next followed call or return of the context, nothing
is noted although a call is in progress (`Blind`).
-/

namespace DcPerf.Library

variable {χ φ β : Type}

/-- What an observer sees of a context. -/
inductive Transit (χ φ : Type) where
  | call (c : χ) (f : φ)
  | ret (c : χ) (f : φ)
  deriving DecidableEq

namespace Transit

/-- The value of the innermost followed call on a stack. -/
def innermost (v : φ → Option β) (stk : List φ) : Option β := stk.findSome? v

/-- A call of the context that is followed, or a return from one. -/
def Followed (v : φ → Option β) (c : χ) : Transit χ φ → Prop
  | .call c' f => c' = c ∧ v f ≠ none
  | .ret c' f => c' = c ∧ v f ≠ none

variable [DecidableEq χ]

def move (stk : χ → List φ) : Transit χ φ → χ → List φ
  | .call c f => Function.update stk c (f :: stk c)
  | .ret c _ => Function.update stk c (stk c).tail

/-- The calls in progress in every context, the innermost first. -/
def inProgress (evs : List (Transit χ φ)) : χ → List φ := evs.foldl move fun _ => []

/-- A return is the one of the innermost call. -/
def Returns (stk : χ → List φ) : Transit χ φ → Prop
  | .call _ _ => True
  | .ret c f => (stk c).head? = some f

instance [DecidableEq φ] (stk : χ → List φ) (e : Transit χ φ) : Decidable (Returns stk e) :=
  match e with
  | .call _ _ => isTrue trivial
  | .ret _ _ => inferInstanceAs (Decidable (_ = some _))

/-- The calls of every context are nested. -/
def Nested (evs : List (Transit χ φ)) : Prop := Always (fun pre e => Returns (inProgress pre) e) evs

instance [DecidableEq φ] (evs : List (Transit χ φ)) : Decidable (Nested evs) :=
  inferInstanceAs (Decidable (Always _ evs))

def note (v : φ → Option β) (m : χ → Option β) : Transit χ φ → χ → Option β
  | .call c f => if v f = none then m else Function.update m c (v f)
  | .ret c f => if v f = none then m else Function.update m c none

/-- What the observer has noted. -/
def noted (v : φ → Option β) (evs : List (Transit χ φ)) : χ → Option β := evs.foldl (note v) fun _ => none

/-- The last that was seen of the followed calls of the context is a return from one inside another. -/
def Blind (v : φ → Option β) (evs : List (Transit χ φ)) (c : χ) : Prop :=
  ∃ pre f post, evs = pre ++ .ret c f :: post ∧ v f ≠ none ∧ innermost v (inProgress pre c).tail ≠ none ∧
    ∀ e ∈ post, ¬Followed v c e

variable {v : φ → Option β} {evs : List (Transit χ φ)} {e : Transit χ φ} {c : χ} {f : φ} {b : β}

/-! ## One more event -/

@[simp] theorem inProgress_nil : inProgress ([] : List (Transit χ φ)) = fun _ => [] := rfl

@[simp] theorem inProgress_snoc : inProgress (evs ++ [e]) = move (inProgress evs) e := by simp [inProgress]

@[simp] theorem noted_nil : noted v ([] : List (Transit χ φ)) = fun _ => none := rfl

@[simp] theorem noted_snoc : noted v (evs ++ [e]) = note v (noted v evs) e := by simp [noted]

theorem nested_snoc : Nested (evs ++ [e]) ↔ Nested evs ∧ Returns (inProgress evs) e := always_snoc

@[simp] theorem innermost_nil : innermost v [] = none := rfl

theorem innermost_cons_some (h : v f = some b) (below : List φ) : innermost v (f :: below) = some b := by
  simp [innermost, h]

theorem innermost_cons_none (h : v f = none) (below : List φ) :
    innermost v (f :: below) = innermost v below := by
  simp [innermost, h]

omit [DecidableEq χ] in
theorem followed_call : Followed v c (.call c f) ↔ v f ≠ none := by simp [Followed]

omit [DecidableEq χ] in
theorem followed_ret : Followed v c (.ret c f) ↔ v f ≠ none := by simp [Followed]

/-- An event that is not followed in a context leaves what is noted there and what is innermost. -/
theorem note_of_not_followed (h : ¬Followed v c e) (m : χ → Option β) : note v m e c = m c := by
  cases e with
  | call c' f =>
    by_cases hc : c' = c
    · subst hc
      have hf : v f = none := not_not.mp (mt followed_call.mpr h)
      rw [note, if_pos hf]
    · by_cases hf : v f = none
      · rw [note, if_pos hf]
      · rw [note, if_neg hf, Function.update_of_ne (Ne.symm hc)]
  | ret c' f =>
    by_cases hc : c' = c
    · subst hc
      have hf : v f = none := not_not.mp (mt followed_ret.mpr h)
      rw [note, if_pos hf]
    · by_cases hf : v f = none
      · rw [note, if_pos hf]
      · rw [note, if_neg hf, Function.update_of_ne (Ne.symm hc)]

theorem innermost_of_not_followed {stk : χ → List φ} (he : Returns stk e) (h : ¬Followed v c e) :
    innermost v (move stk e c) = innermost v (stk c) := by
  cases e with
  | call c' f =>
    by_cases hc : c' = c
    · subst hc
      have hf : v f = none := not_not.mp (mt followed_call.mpr h)
      rw [move, Function.update_self, innermost_cons_none hf]
    · rw [move, Function.update_of_ne (Ne.symm hc)]
  | ret c' f =>
    by_cases hc : c' = c
    · subst hc
      have hf : v f = none := not_not.mp (mt followed_ret.mpr h)
      obtain ⟨below, hstk⟩ := List.head?_eq_some_iff.mp he
      rw [move, Function.update_self, hstk, List.tail_cons, innermost_cons_none hf]
    · rw [move, Function.update_of_ne (Ne.symm hc)]

/-! ## Where nothing is noted -/

theorem not_blind_nil : ¬Blind v ([] : List (Transit χ φ)) c := by
  rintro ⟨pre, f, post, h, -⟩
  simp at h

/-- An event that is not followed changes nothing. -/
theorem blind_snoc_of_not_followed (h : ¬Followed v c e) : Blind v (evs ++ [e]) c ↔ Blind v evs c := by
  constructor
  · rintro ⟨pre, f, post, hevs, hf, hin, hpost⟩
    rcases List.eq_nil_or_concat post with rfl | ⟨post', x, rfl⟩
    · obtain ⟨rfl, rfl⟩ := List.append_singleton_inj.mp hevs
      exact absurd (followed_ret.mpr hf) h
    · have hevs' : evs ++ [e] = (pre ++ .ret c f :: post') ++ [x] := by simpa using hevs
      obtain ⟨rfl, rfl⟩ := List.append_singleton_inj.mp hevs'
      exact ⟨pre, f, post', rfl, hf, hin, fun y hy => hpost y (by simp [hy])⟩
  · rintro ⟨pre, f, post, rfl, hf, hin, hpost⟩
    refine ⟨pre, f, post ++ [e], by simp, hf, hin, ?_⟩
    intro x hx
    rcases List.mem_append.mp hx with hx | hx
    · exact hpost x hx
    · rwa [List.mem_singleton.mp hx]

/-- A followed event decides anew. -/
theorem blind_snoc_of_followed (h : Followed v c e) : Blind v (evs ++ [e]) c ↔
    ∃ f, e = .ret c f ∧ innermost v (inProgress evs c).tail ≠ none := by
  constructor
  · rintro ⟨pre, f, post, hevs, hf, hin, hpost⟩
    rcases List.eq_nil_or_concat post with rfl | ⟨post', x, rfl⟩
    · obtain ⟨rfl, rfl⟩ := List.append_singleton_inj.mp hevs
      exact ⟨f, rfl, hin⟩
    · have hevs' : evs ++ [e] = (pre ++ .ret c f :: post') ++ [x] := by simpa using hevs
      obtain ⟨-, rfl⟩ := List.append_singleton_inj.mp hevs'
      exact absurd h (hpost e (by simp))
  · rintro ⟨f, rfl, hin⟩
    exact ⟨evs, f, [], rfl, followed_ret.mp h, hin, fun x hx => nomatch hx⟩

/-! ## What is noted -/

/-- Where the observer is blind, nothing is noted of a call in progress; elsewhere what is noted is right. -/
theorem noted_spec (h : Nested evs) (c : χ) :
    (Blind v evs c → noted v evs c = none ∧ innermost v (inProgress evs c) ≠ none) ∧
      (¬Blind v evs c → noted v evs c = innermost v (inProgress evs c)) := by
  induction evs using List.reverseRecOn with
  | nil => exact ⟨fun hb => absurd hb not_blind_nil, fun _ => rfl⟩
  | append_singleton evs e ih =>
    obtain ⟨hevs, he⟩ := nested_snoc.mp h
    rw [noted_snoc, inProgress_snoc]
    by_cases hfol : Followed v c e
    · rw [blind_snoc_of_followed hfol]
      cases e with
      | call c' f =>
        obtain ⟨rfl, hf⟩ := hfol
        obtain ⟨b, hb⟩ := Option.ne_none_iff_exists'.mp hf
        refine ⟨fun hblind => ?_, fun _ => ?_⟩
        · obtain ⟨_, hret, -⟩ := hblind
          cases hret
        · rw [note, if_neg hf, move, Function.update_self, Function.update_self,
            innermost_cons_some hb, hb]
      | ret c' f =>
        obtain ⟨rfl, hf⟩ := hfol
        rw [note, if_neg hf, move, Function.update_self, Function.update_self]
        refine ⟨fun ⟨_, _, hin⟩ => ⟨rfl, hin⟩, fun hno => ?_⟩
        by_contra hin
        exact hno ⟨f, rfl, Ne.symm hin⟩
    · rw [blind_snoc_of_not_followed hfol, note_of_not_followed hfol,
        innermost_of_not_followed he hfol]
      exact ih hevs

theorem noted_of_blind (h : Nested evs) (hb : Blind v evs c) : noted v evs c = none :=
  ((noted_spec h c).1 hb).1

theorem noted_of_not_blind (h : Nested evs) (hb : ¬Blind v evs c) :
    noted v evs c = innermost v (inProgress evs c) :=
  (noted_spec h c).2 hb

/-- What is noted is true. -/
theorem innermost_of_noted (h : Nested evs) (hb : noted v evs c = some b) :
    innermost v (inProgress evs c) = some b := by
  rw [← hb, noted_of_not_blind h]
  intro hblind
  rw [noted_of_blind h hblind] at hb
  cases hb

/-- Without calls in progress, nothing is noted. -/
theorem noted_of_idle (h : Nested evs) (hidle : inProgress evs c = []) : noted v evs c = none := by
  by_cases hb : Blind v evs c
  · exact noted_of_blind h hb
  · rw [noted_of_not_blind h hb, hidle, innermost_nil]

/-- Without any followed call in progress, nothing is noted. -/
theorem noted_eq_empty (h : Nested evs) (hidle : ∀ c, inProgress evs c = []) :
    noted v evs = fun _ => none :=
  funext fun c => noted_of_idle h (hidle c)

/-- What is noted of a value is made of what is noted of the whole. -/
theorem noted_map {γ : Type} (g : β → γ) (evs : List (Transit χ φ)) (c : χ) :
    noted (fun f => (v f).map g) evs c = (noted v evs c).map g := by
  induction evs using List.reverseRecOn with
  | nil => rfl
  | append_singleton evs e ih =>
    rw [noted_snoc, noted_snoc]
    by_cases hfol : Followed v c e
    · cases e with
      | call c' f =>
        obtain ⟨rfl, hf⟩ := hfol
        have hmap : (v f).map g ≠ none := by simpa using hf
        rw [note, note, if_neg hf, if_neg hmap, Function.update_self, Function.update_self]
      | ret c' f =>
        obtain ⟨rfl, hf⟩ := hfol
        have hmap : (v f).map g ≠ none := by simpa using hf
        rw [note, note, if_neg hf, if_neg hmap, Function.update_self, Function.update_self]
        rfl
    · have hmap : ¬Followed (fun f => (v f).map g) c e := by
        cases e <;> simpa [Followed] using hfol
      rw [note_of_not_followed hfol, note_of_not_followed hmap, ih]

end Transit

/-- A report that is right where the observer sees, and empty where it does not, is never wrong; it is
complete when there is nothing to report of what is not seen. -/
theorem always_reported {ε ℓ : Type} {reported due : List ε → ε → List ℓ} {Lost : List ε → ε → Prop}
    {evs : List ε} (hlost : Always (fun pre e => Lost pre e → reported pre e = []) evs)
    (hseen : Always (fun pre e => ¬Lost pre e → reported pre e = due pre e) evs) :
    Always (fun pre e => reported pre e <+: due pre e) evs ∧
      (Always (fun pre e => reported pre e = due pre e) evs ↔
        Always (fun pre e => due pre e ≠ [] → ¬Lost pre e) evs) := by
  refine ⟨(hlost.and hseen).mono fun pre e ⟨hno, hyes⟩ => ?_, fun h => ?_, fun h => ?_⟩
  · by_cases hl : Lost pre e
    · rw [hno hl]
      exact List.nil_prefix
    · exact (hyes hl).symm ▸ List.prefix_rfl
  · refine (h.and hlost).mono fun pre e ⟨heq, hno⟩ hdue hl => ?_
    rw [hno hl] at heq
    exact hdue heq.symm
  · refine (h.and (hlost.and hseen)).mono fun pre e ⟨hdue, hno, hyes⟩ => ?_
    by_cases hl : Lost pre e
    · rw [hno hl]
      by_contra hne
      exact hdue (Ne.symm hne) hl
    · exact hyes hl

end DcPerf.Library
