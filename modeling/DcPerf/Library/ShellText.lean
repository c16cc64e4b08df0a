import Mathlib.Data.List.Basic
import Mathlib.Data.List.DropRight
import Mathlib.Data.List.Induction

/-!
# Texts in a shell

Lines, words and fields, as a shell script takes texts apart: with `wc -l` and `sed -n`, by word
splitting, and with `cut`.
-/

namespace DcPerf.Library.ShellText

/-- Characters between the words of a text. -/
def isBlank (c : Char) : Bool := c == ' ' || c == '\t' || c == '\n'

/-- The words that an unquoted text is split into. -/
def words (text : List Char) : List (List Char) := (text.splitOnP isBlank).filter fun w => !w.isEmpty

/-- The line that `echo` prints. -/
def echo (ws : List (List Char)) : List Char := [' '].intercalate ws

/-- `$(...)` of a command that prints `output`. -/
def substitution (output : List Char) : List Char := output.rdropWhile (· == '\n')

/-- Lines, each with its end. -/
def unlines (lines : List (List Char)) : List Char := lines.flatMap (· ++ ['\n'])

/-- `wc -l` -/
def lineCount (text : List Char) : ℕ := text.count '\n'

/-- The lines of a text; the last one may lack its end. -/
def textLines (text : List Char) : List (List Char) :=
  let pieces := text.splitOn '\n'
  if pieces.getLast? = some [] then pieces.dropLast else pieces

/-- `sed -n -e "first,lastp"`: the first line is printed even if it comes after the last one. -/
def sedPrint (first last : ℕ) (text : List Char) : List Char :=
  unlines (((textLines text).drop (first - 1)).take (max 1 (last + 1 - first)))

/-- `cut -d d -f k` of a line. -/
def cut (d : Char) (k : ℕ) (line : List Char) : List Char :=
  if d ∈ line then (line.splitOn d).getD (k - 1) [] else line

variable {pre post w : List Char} {ws lines : List (List Char)} {b d : Char}

/-! ## Texts side by side -/

/-- Of two equal texts, the beginnings of one length are equal, and so is what follows them. -/
theorem append_inj_of_length {s s' t t' : String} (h : s ++ t = s' ++ t')
    (hlength : s.length = s'.length) : s = s' ∧ t = t' := by
  rw [← String.toList_inj, String.toList_append, String.toList_append] at h
  obtain ⟨hs, ht⟩ := List.append_inj h (by rwa [String.length_toList, String.length_toList])
  exact ⟨String.toList_inj.mp hs, String.toList_inj.mp ht⟩

theorem toDigits_injective {m n : ℕ} (h : Nat.toDigits 10 m = Nat.toDigits 10 n) : m = n := by
  rw [← Nat.ofDigitChars_toDigits (b := 10) (n := m) (by omega) (by omega), h,
    Nat.ofDigitChars_toDigits (by omega) (by omega)]

/-- Numbers that are set apart by a character which is no digit can be read back. -/
theorem digits_append_cons_inj {m n : ℕ} {s t : List Char} {c : Char} (hc : c.isDigit = false)
    (h : Nat.toDigits 10 m ++ c :: s = Nat.toDigits 10 n ++ c :: t) : m = n ∧ s = t := by
  have htake (k : ℕ) (u : List Char) :
      (Nat.toDigits 10 k ++ c :: u).takeWhile Char.isDigit = Nat.toDigits 10 k := by
    have hdigits : ∀ d ∈ Nat.toDigits 10 k, d.isDigit = true := fun d hd =>
      Nat.isDigit_of_mem_toDigits (by omega) (by omega) hd
    rw [List.takeWhile_append_of_pos hdigits, List.takeWhile_cons_of_neg (by simp [hc]),
      List.append_nil]
  have hdigits := congrArg (List.takeWhile Char.isDigit) h
  rw [htake, htake] at hdigits
  rw [hdigits, List.append_cancel_left_eq] at h
  exact ⟨toDigits_injective hdigits, (List.cons.inj h).2⟩

/-! ## Words -/

/-- A text that is not split. -/
structure IsWord (w : List Char) : Prop where
  ne_nil : w ≠ []
  noBlank : ∀ c ∈ w, isBlank c = false

theorem IsWord.newline_not_mem (h : IsWord w) : '\n' ∉ w := by
  intro hmem
  have hblank := h.noBlank '\n' hmem
  cases hblank

@[simp] theorem words_nil : words [] = [] := rfl

/-- A blank separates the words before it from those after it. -/
theorem words_append_cons (hb : isBlank b = true) (s t : List Char) :
    words (s ++ b :: t) = words s ++ words t := by
  rw [words, List.splitOnP_append_cons s t hb, List.filter_append]
  rfl

/-- A blank at the end does not matter. -/
theorem words_concat (hb : isBlank b = true) (s : List Char) : words (s ++ [b]) = words s := by
  rw [words_append_cons hb, words_nil, List.append_nil]

theorem words_word (h : IsWord w) : words w = [w] := by
  have hne : w.isEmpty = false := List.isEmpty_eq_false_iff.mpr h.ne_nil
  rw [words, List.splitOnP_eq_singleton h.noBlank]
  simp [hne]

/-- The ends of lines separate words. -/
theorem words_unlines (h : ∀ w ∈ ws, IsWord w) : words (unlines ws) = ws := by
  induction ws with
  | nil => rfl
  | cons w ws ih =>
    have hrest : words (unlines ws) = ws := ih fun v hv => h v (List.mem_cons_of_mem _ hv)
    have hsplit : unlines (w :: ws) = w ++ '\n' :: unlines ws := by simp [unlines]
    rw [hsplit, words_append_cons rfl, words_word (h w List.mem_cons_self), hrest]
    rfl

theorem words_echo (h : ∀ w ∈ ws, IsWord w) : words (echo ws) = ws := by
  induction ws with
  | nil => rfl
  | cons w ws ih =>
    have hw := h w List.mem_cons_self
    cases ws with
    | nil => simpa [echo] using words_word hw
    | cons v ws =>
      have hrest : words (echo (v :: ws)) = v :: ws :=
        ih fun u hu => h u (List.mem_cons_of_mem _ hu)
      have hsplit : echo (w :: v :: ws) = w ++ ' ' :: echo (v :: ws) := by
        simp [echo]
      rw [hsplit, words_append_cons rfl, words_word hw, hrest]
      rfl

/-- Pieces of a split text have no separators. -/
theorem not_of_mem_splitOnP {p : Char → Bool} {text piece : List Char} (h : piece ∈ text.splitOnP p) :
    ∀ c ∈ piece, p c = false := by
  induction text generalizing piece with
  | nil =>
    obtain rfl : piece = [] := by simpa using h
    simp
  | cons a text ih =>
    rw [List.splitOnP_cons_eq_if_modifyHead] at h
    by_cases ha : p a = true
    · rw [if_pos ha, List.mem_cons] at h
      rcases h with rfl | h
      · simp
      · exact ih h
    · rw [if_neg ha] at h
      obtain ⟨first, others, hsplit⟩ := List.exists_cons_of_ne_nil (List.splitOnP_ne_nil p text)
      rw [hsplit, List.modifyHead_cons, List.mem_cons] at h
      rcases h with rfl | h
      · have hfirst : ∀ c ∈ first, p c = false := ih (hsplit ▸ List.mem_cons_self)
        exact List.forall_mem_cons.mpr ⟨Bool.eq_false_iff.mpr ha, hfirst⟩
      · exact ih (hsplit ▸ List.mem_cons_of_mem first h)

theorem isWord_of_mem_words {text : List Char} (h : w ∈ words text) : IsWord w := by
  obtain ⟨hpiece, hne⟩ := List.mem_filter.mp h
  exact ⟨by simpa using hne, not_of_mem_splitOnP hpiece⟩

/-- A text that begins with a word: its first word goes on from there. -/
theorem words_word_append (h : IsWord w) (s : List Char) :
    ∃ t rest, words (w ++ s) = (w ++ t) :: rest := by
  induction s generalizing w with
  | nil => exact ⟨[], [], by simp [words_word h]⟩
  | cons c s ih =>
    by_cases hc : isBlank c = true
    · exact ⟨[], words s, by rw [words_append_cons hc, words_word h, List.append_nil]; rfl⟩
    · have hlonger : IsWord (w ++ [c]) := by
        refine ⟨by simp, List.forall_mem_append.mpr ⟨h.noBlank, ?_⟩⟩
        exact List.forall_mem_singleton.mpr (Bool.eq_false_iff.mpr hc)
      obtain ⟨t, rest, hwords⟩ := ih hlonger
      exact ⟨c :: t, rest, by simpa using hwords⟩

/-- Word splitting does not see the line ends that a command substitution removes. -/
theorem words_substitution (output : List Char) : words (substitution output) = words output := by
  unfold substitution
  induction output using List.reverseRecOn with
  | nil => rfl
  | append_singleton output c ih =>
    by_cases hc : c = '\n'
    · subst hc
      rw [List.rdropWhile_concat_pos _ _ _ rfl, ih, words_concat rfl]
    · rw [List.rdropWhile_concat_neg _ _ _ (by simpa using hc)]

/-- A text without line ends is left as it is. -/
theorem substitution_of_not_mem {output : List Char} (h : '\n' ∉ output) :
    substitution output = output := by
  refine List.rdropWhile_eq_self_iff.mpr fun hne hlast => h ?_
  have heq : output.getLast hne = '\n' := by simpa using hlast
  rw [← heq]
  exact List.getLast_mem hne

/-! ## Lines -/

theorem lineCount_unlines (h : ∀ line ∈ lines, '\n' ∉ line) :
    lineCount (unlines lines) = lines.length := by
  unfold lineCount unlines
  induction lines with
  | nil => rfl
  | cons line lines ih =>
    have hrest := ih fun l hl => h l (List.mem_cons_of_mem _ hl)
    rw [List.flatMap_cons, List.count_append, hrest, List.count_append,
      List.count_eq_zero_of_not_mem (h line List.mem_cons_self), List.count_singleton_self,
      List.length_cons]
    omega

theorem splitOn_unlines (h : ∀ line ∈ lines, '\n' ∉ line) :
    (unlines lines).splitOn '\n' = lines ++ [[]] := by
  induction lines with
  | nil => rfl
  | cons line lines ih =>
    have hrest := ih fun l hl => h l (List.mem_cons_of_mem _ hl)
    have hsplit : unlines (line :: lines) = line ++ '\n' :: unlines lines := by simp [unlines]
    rw [hsplit, List.splitOn_append_cons_self_of_not_mem (h line List.mem_cons_self), hrest]
    rfl

theorem textLines_unlines (h : ∀ line ∈ lines, '\n' ∉ line) : textLines (unlines lines) = lines := by
  simp [textLines, splitOn_unlines h]

/-- The lines that `sed` prints. -/
theorem sedPrint_unlines (h : ∀ line ∈ lines, '\n' ∉ line) {first last : ℕ} (hle : first ≤ last) :
    sedPrint first last (unlines lines) =
      unlines ((lines.drop (first - 1)).take (last + 1 - first)) := by
  rw [sedPrint, textLines_unlines h, Nat.max_eq_right (by omega)]

/-! ## Fields -/

theorem cut_one (h : d ∉ pre) : cut d 1 (pre ++ d :: post) = pre := by
  rw [cut, if_pos (by simp), List.splitOn_append_cons_self_of_not_mem h]
  rfl

/-- The last field. -/
theorem cut_two (hpre : d ∉ pre) (hpost : d ∉ post) : cut d 2 (pre ++ d :: post) = post := by
  rw [cut, if_pos (by simp), List.splitOn_append_cons_self_of_not_mem hpre,
    List.splitOn_eq_singleton hpost]
  rfl

/-- The second field ends at the next separator. -/
theorem cut_two_takeWhile (h : d ∉ pre) (post : List Char) :
    cut d 2 (pre ++ d :: post) = post.takeWhile fun c => c != d := by
  rw [cut, if_pos (by simp), List.splitOn_append_cons_self_of_not_mem h]
  show (post.splitOn d).getD 0 [] = _
  induction post with
  | nil => rfl
  | cons c post ih =>
    rw [List.splitOn_cons_eq_if_modifyHead]
    by_cases hc : c = d
    · simp [hc]
    · obtain ⟨first, others, hsplit⟩ := List.exists_cons_of_ne_nil (List.splitOn_ne_nil d post)
      rw [hsplit] at ih ⊢
      simpa [hc] using ih

end DcPerf.Library.ShellText
