import DcPerf.Pci.Arguments

/-!
# What `set_cmplto.sh` accepts

The two patterns for the address describe the same texts before and after the case is folded. The two
strips of the code leave the digits of four kinds of texts, one of which is not documented.
-/

namespace DcPerf.Pci.SetCmplto

open DcPerf.Library DcPerf.Pci

variable {text bdf : List Char} {request : Request}

/-! ## The address -/

/-- What does not tell upper from lower case is the same after the case is folded. -/
theorem toLower_congr {β : Type} {p : Char → β}
    (h : ∀ n < 26, p (Char.ofNat (65 + n)) = p (Char.ofNat (97 + n))) (c : Char) :
    p c.toLower = p c := by
  have hfold : ∀ n < 26, (Char.ofNat (65 + n)).toLower = Char.ofNat (97 + n) := by decide
  by_cases hc : 65 ≤ c.toNat ∧ c.toNat ≤ 90
  · have hn : c.toNat - 65 < 26 := by omega
    have hcode : Char.ofNat (65 + (c.toNat - 65)) = c := by
      rw [Nat.add_sub_cancel' hc.1, Char.ofNat_toNat]
    rw [← hcode, hfold _ hn, h _ hn]
  · have hsame : c.toLower = c := dif_neg hc
    rw [hsame]

theorem isHexWord_map (k : ℕ) (text : List Char) :
    isHexWord k (text.map Char.toLower) = isHexWord k text := by
  have hdigit : isXDigit ∘ Char.toLower = isXDigit := funext (toLower_congr (by decide))
  rw [isHexWord, isHexWord, List.length_map, List.all_map, hdigit]

theorem toLower_eq {x : Char} (c : Char)
    (hx : ∀ n < 26, decide (Char.ofNat (65 + n) = x) = decide (Char.ofNat (97 + n) = x)) :
    c.toLower = x ↔ c = x :=
  decide_eq_decide.mp (toLower_congr (p := fun c => decide (c = x)) hx c)

theorem isPlace_map : IsPlace (text.map Char.toLower) ↔ IsPlace text := by
  have hdigit (c : Char) : isXDigit c.toLower = isXDigit c := toLower_congr (by decide) c
  have hfunction (c : Char) : ('0' ≤ c.toLower ∧ c.toLower ≤ '7') ↔ ('0' ≤ c ∧ c ≤ '7') :=
    decide_eq_decide.mp (toLower_congr (p := fun c => decide ('0' ≤ c ∧ c ≤ '7')) (by decide) c)
  constructor
  · rintro ⟨bus', d', v', f', h, hbus, hd, hv, hf⟩
    obtain ⟨bus, rest, rfl, rfl, hrest⟩ := List.map_eq_append_iff.mp h
    simp only [List.map_eq_cons_iff, List.map_eq_nil_iff] at hrest
    obtain ⟨a, _, rfl, ha, d, _, rfl, rfl, v, _, rfl, rfl, b, _, rfl, hb, f, _, rfl, rfl, rfl⟩ := hrest
    rw [isHexWord_map] at hbus
    rw [toLower_eq d (by decide), toLower_eq d (by decide)] at hd
    rw [hdigit] at hv
    rw [hfunction] at hf
    rw [toLower_eq a (by decide)] at ha
    rw [toLower_eq b (by decide)] at hb
    subst ha hb
    exact ⟨bus, d, v, f, rfl, hbus, hd, hv, hf⟩
  · rintro ⟨bus, d, v, f, rfl, hbus, hd, hv, hf⟩
    refine ⟨bus.map Char.toLower, d.toLower, v.toLower, f.toLower, by simp, ?_, ?_, ?_, ?_⟩
    · rw [isHexWord_map]
      exact hbus
    · rw [toLower_eq d (by decide), toLower_eq d (by decide)]
      exact hd
    · rw [hdigit]
      exact hv
    · exact (hfunction f).mpr hf

theorem isDeviceFunction_iff : isDeviceFunction text = true ↔ ∃ d v f, text = [d, v, '.', f] ∧
    (d = '0' ∨ d = '1') ∧ isXDigit v = true ∧ '0' ≤ f ∧ f ≤ '7' := by
  constructor
  · intro h
    unfold isDeviceFunction at h
    split at h
    · rename_i d v f
      exact ⟨d, v, f, rfl, by simpa [and_assoc] using h⟩
    · cases h
  · rintro ⟨d, v, f, rfl, h⟩
    simpa [isDeviceFunction, and_assoc] using h

/-- The shorter pattern. -/
theorem isShortBdf_iff : isShortBdf text = true ↔ IsPlace text := by
  constructor
  · intro h
    unfold isShortBdf at h
    split at h
    · rename_i a b rest
      rw [Bool.and_eq_true, isDeviceFunction_iff] at h
      obtain ⟨hbus, d, v, f, rfl, hrest⟩ := h
      exact ⟨[a, b], d, v, f, rfl, by simpa [isHexWord] using hbus, hrest⟩
    · cases h
  · rintro ⟨bus, d, v, f, rfl, hbus, hrest⟩
    obtain ⟨a, b, rfl⟩ := List.length_eq_two.mp (length_of_isHexWord hbus)
    have hab : (isXDigit a && isXDigit b) = true := by simpa [isHexWord] using hbus
    have hdf : isDeviceFunction [d, v, '.', f] = true :=
      isDeviceFunction_iff.mpr ⟨d, v, f, rfl, hrest⟩
    exact Bool.and_eq_true_iff.mpr ⟨hab, hdf⟩

/-- The text has a domain. -/
def IsFull (text : List Char) : Prop :=
  ∃ domain place, text = domain ++ ':' :: place ∧ isHexWord 4 domain = true ∧ IsPlace place

/-- The longer pattern. -/
theorem isFullBdf_iff : isFullBdf text = true ↔ IsFull text := by
  constructor
  · intro h
    unfold isFullBdf at h
    split at h
    · rename_i a b c d place
      rw [Bool.and_eq_true, isShortBdf_iff] at h
      exact ⟨[a, b, c, d], place, rfl, by simpa [isHexWord, and_assoc] using h.1, h.2⟩
    · cases h
  · rintro ⟨domain, place, rfl, hdomain, hplace⟩
    obtain ⟨a, b, c, d, rfl⟩ := List.length_eq_four.mp (length_of_isHexWord hdomain)
    have habcd : (isXDigit a && isXDigit b && isXDigit c && isXDigit d) = true := by
      simpa [isHexWord, and_assoc] using hdomain
    exact Bool.and_eq_true_iff.mpr ⟨habcd, isShortBdf_iff.mpr hplace⟩

theorem IsPlace.length (h : IsPlace text) : text.length = 7 := by
  obtain ⟨bus, d, v, f, rfl, hbus, -⟩ := h
  simp [length_of_isHexWord hbus]

theorem IsFull.length (h : IsFull text) : text.length = 12 := by
  obtain ⟨domain, place, rfl, hdomain, hplace⟩ := h
  simp [length_of_isHexWord hdomain, hplace.length]

theorem isFull_map : IsFull (text.map Char.toLower) ↔ IsFull text := by
  constructor
  · rintro ⟨domain', place', h, hdomain, hplace⟩
    obtain ⟨domain, rest, rfl, rfl, hrest⟩ := List.map_eq_append_iff.mp h
    obtain ⟨a, place, rfl, ha, rfl⟩ := List.map_eq_cons_iff.mp hrest
    rw [isHexWord_map] at hdomain
    rw [toLower_eq a (by decide)] at ha
    subst ha
    exact ⟨domain, place, rfl, hdomain, isPlace_map.mp hplace⟩
  · rintro ⟨domain, place, rfl, hdomain, hplace⟩
    refine ⟨domain.map Char.toLower, place.map Char.toLower, by simp, ?_, isPlace_map.mpr hplace⟩
    rw [isHexWord_map]
    exact hdomain

theorem names_of_place (hp : IsPlace text) :
    Names text bdf ↔ bdf = "0000:".toList ++ text.map Char.toLower := by
  constructor
  · intro h
    cases h with
    | short _ => rfl
    | full domain place hd hp' h =>
      have hlen : text.length = 12 := IsFull.length ⟨domain, place, h, hd, hp'⟩
      rw [hp.length] at hlen
      cases hlen
  · rintro rfl
    exact .short hp

theorem names_of_not_place (hp : ¬IsPlace text) :
    Names text bdf ↔ IsFull text ∧ bdf = text.map Char.toLower := by
  constructor
  · intro h
    cases h with
    | short h => exact absurd h hp
    | full domain place hd hp' h => exact ⟨⟨domain, place, h, hd, hp'⟩, rfl⟩
  · rintro ⟨⟨domain, place, h, hd, hp'⟩, rfl⟩
    exact .full domain place hd hp' h

/-- Both patterns together accept the documented addresses, and the script works on the lower-case form
with a domain. -/
theorem checkBdf_ok : checkBdf text = .ok bdf ↔ Names text bdf := by
  have hcheck : checkBdf text = .ok bdf ↔
      isFullBdf (canonicalBdf text) = true ∧ bdf = canonicalBdf text := by
    unfold checkBdf
    dsimp only
    split
    · rename_i h
      simp [h, eq_comm]
    · rename_i h
      simp [h]
  rw [hcheck, isFullBdf_iff, canonicalBdf, isFull_map]
  by_cases hp : IsPlace text
  · have hlower : "0000:".toList.map Char.toLower = "0000:".toList := by decide
    have hfull : IsFull ("0000:".toList ++ text) := ⟨"0000".toList, text, rfl, by decide, hp⟩
    rw [if_pos (isShortBdf_iff.mpr hp), names_of_place hp, List.map_append, hlower]
    simp only [hfull, true_and]
  · rw [if_neg (mt isShortBdf_iff.mp hp), names_of_not_place hp]

/-! ## The code -/

/-- The digits that are left of a code. -/
def strip (rawCode : List Char) : List Char := stripPrefix ['0', 'X'] (stripPrefix ['0', 'x'] rawCode)

theorem stripPrefix_append (pre text : List Char) : stripPrefix pre (pre ++ text) = text := by
  unfold stripPrefix
  rw [if_pos (by simp), List.drop_left]

theorem stripPrefix_cases (pre text : List Char) :
    text = stripPrefix pre text ∨ text = pre ++ stripPrefix pre text := by
  unfold stripPrefix
  split
  · rename_i h
    obtain ⟨rest, rfl⟩ := List.isPrefixOf_iff_prefix.mp h
    exact .inr (by rw [List.drop_left])
  · exact .inl rfl

/-- Digits have no prefix. -/
theorem stripPrefix_digits {pre digits : List Char} (hd : ∀ c ∈ digits, isXDigit c = true)
    (hp : ∃ c ∈ pre, isXDigit c = false) : stripPrefix pre digits = digits := by
  unfold stripPrefix
  refine if_neg fun h => ?_
  obtain ⟨c, hc, hx⟩ := hp
  have hmem : c ∈ digits := (List.isPrefixOf_iff_prefix.mp h).subset hc
  rw [hd c hmem] at hx
  cases hx

theorem strip_cases (rawCode : List Char) :
    ∃ pre ∈ bothPrefixes :: documentedPrefixes, rawCode = pre ++ strip rawCode := by
  unfold strip
  rcases stripPrefix_cases ['0', 'x'] rawCode with hx | hx
  · rcases stripPrefix_cases ['0', 'X'] (stripPrefix ['0', 'x'] rawCode) with hX | hX
    · exact ⟨[], by simp [documentedPrefixes], hx.trans hX⟩
    · exact ⟨['0', 'X'], by simp [documentedPrefixes], hx.trans hX⟩
  · rcases stripPrefix_cases ['0', 'X'] (stripPrefix ['0', 'x'] rawCode) with hX | hX
    · refine ⟨['0', 'x'], by simp [documentedPrefixes], ?_⟩
      rw [← hX]
      exact hx
    · refine ⟨bothPrefixes, by simp, hx.trans ?_⟩
      rw [hX, stripPrefix_append]
      rfl

theorem strip_append {pre digits : List Char} (hp : pre ∈ bothPrefixes :: documentedPrefixes)
    (hd : ∀ c ∈ digits, isXDigit c = true) : strip (pre ++ digits) = digits := by
  have hx : stripPrefix ['0', 'x'] digits = digits := stripPrefix_digits hd ⟨'x', by simp, rfl⟩
  have hX : stripPrefix ['0', 'X'] digits = digits := stripPrefix_digits hd ⟨'X', by simp, rfl⟩
  unfold strip
  simp only [bothPrefixes, documentedPrefixes, List.mem_cons, List.not_mem_nil, or_false] at hp
  rcases hp with rfl | rfl | rfl | rfl
  · have hfirst : stripPrefix ['0', 'x'] (['0', 'x', '0', 'X'] ++ digits) = ['0', 'X'] ++ digits :=
      stripPrefix_append ['0', 'x'] (['0', 'X'] ++ digits)
    rw [hfirst, stripPrefix_append]
  · rw [List.nil_append, hx, hX]
  · rw [stripPrefix_append, hX]
  · have hfirst : stripPrefix ['0', 'x'] (['0', 'X'] ++ digits) = ['0', 'X'] ++ digits := by
      simp [stripPrefix, List.isPrefixOf]
    rw [hfirst, stripPrefix_append]

/-- One to four hexadecimal digits. -/
def IsCode (digits : List Char) : Prop :=
  digits ≠ [] ∧ digits.length ≤ 4 ∧ ∀ c ∈ digits, isXDigit c = true

theorem find_code {n : ℕ} {entry : TimeoutCode} :
    timeoutCodes.find? (fun entry => entry.code == n) = some entry ↔
      entry ∈ timeoutCodes ∧ entry.code = n := by
  have hall : ∀ entry ∈ timeoutCodes,
      timeoutCodes.find? (fun x => x.code == entry.code) = some entry := by decide
  constructor
  · intro h
    exact ⟨List.mem_of_find?_eq_some h, by simpa using List.find?_some h⟩
  · rintro ⟨hentry, rfl⟩
    exact hall entry hentry

/-- The script reads the digits that its strips leave. -/
theorem readCode_strip : readCode text = .ok request ↔ IsCode (strip text) ∧
    ∃ entry h, request = .code entry h ∧ entry.code = valueIn 16 (strip text) := by
  unfold readCode
  extract_lets digits
  have hdigits : strip text = digits := rfl
  rw [hdigits]
  split
  · rename_i hbad
    have hnot : ¬IsCode digits := by
      rintro ⟨hne, hlen, hd⟩
      simp only [Bool.or_eq_true, List.isEmpty_iff, decide_eq_true_eq, Bool.not_eq_true',
        List.all_eq_false] at hbad
      rcases hbad with (hnil | hlong) | ⟨c, hc, hx⟩
      · exact hne hnil
      · exact absurd hlen (Nat.not_le.mpr hlong)
      · exact hx (hd c hc)
    simp [hnot]
  · rename_i hgood
    simp only [Bool.or_eq_true, List.isEmpty_iff, decide_eq_true_eq, Bool.not_eq_true',
      List.all_eq_false, not_or, not_exists, not_and, not_not, Nat.not_lt] at hgood
    have hcode : IsCode digits := ⟨hgood.1.1, hgood.1.2, hgood.2⟩
    have hvalue : hexValue digits = valueIn 16 digits :=
      hexValue_eq hcode.2.2 (by have := hcode.2.1; omega)
    split
    · rename_i entry hfind
      obtain ⟨hentry, hn⟩ := find_code.mp hfind
      constructor
      · intro h
        exact ⟨hcode, entry, hentry, (Except.ok.inj h).symm, hn.trans hvalue⟩
      · rintro ⟨-, entry', hentry', rfl, hn'⟩
        have hsame : entry' = entry := by
          have hfind' := find_code.mpr ⟨hentry', hn'.trans hvalue.symm⟩
          rw [hfind] at hfind'
          exact (Option.some.inj hfind').symm
        subst hsame
        rfl
    · rename_i hnone
      constructor
      · intro h
        cases h
      · rintro ⟨-, entry, hentry, -, hn⟩
        have hfind := find_code.mpr ⟨hentry, hn.trans hvalue.symm⟩
        rw [hnone] at hfind
        cases hfind

/-- The accepted codes have at most one prefix, or both in the order of the strips. -/
theorem readCode_ok : readCode text = .ok request ↔
    ∃ entry h, request = .code entry h ∧
      Spells (bothPrefixes :: documentedPrefixes) text entry.code := by
  rw [readCode_strip]
  constructor
  · rintro ⟨⟨hne, hlen, hd⟩, entry, hentry, hrequest, hn⟩
    obtain ⟨pre, hpre, htext⟩ := strip_cases text
    exact ⟨entry, hentry, hrequest, pre, hpre, strip text, htext, hne, hlen, hd, hn⟩
  · rintro ⟨entry, hentry, hrequest, pre, hpre, digits, rfl, hne, hlen, hd, hn⟩
    rw [strip_append hpre hd]
    exact ⟨⟨hne, hlen, hd⟩, entry, hentry, hrequest, hn⟩

theorem spells_cons {pre : List Char} {prefixes : List (List Char)} {n : ℕ} :
    Spells (pre :: prefixes) text n ↔ Spells [pre] text n ∨ Spells prefixes text n := by
  simp [Spells]

/-- A text with both prefixes is not a documented one. -/
theorem not_spells_documented {n n' : ℕ} (h : Spells [bothPrefixes] text n) :
    ¬Spells documentedPrefixes text n' := by
  obtain ⟨pre, hpre, digits, rfl, -⟩ := h
  rw [List.mem_singleton.mp hpre]
  rintro ⟨pre', hpre', digits', heq, -, -, hd, -⟩
  simp only [documentedPrefixes, List.mem_cons, List.not_mem_nil, or_false] at hpre'
  rcases hpre' with rfl | rfl | rfl
  · have hx : 'x' ∈ digits' := by
      rw [← List.nil_append digits', ← heq]
      simp [bothPrefixes]
    exact absurd (hd 'x' hx) (by decide)
  · have hboth : ['0', 'x'] ++ (['0', 'X'] ++ digits) = ['0', 'x'] ++ digits' := heq
    have hrest : ['0', 'X'] ++ digits = digits' := List.append_cancel_left hboth
    have hX : 'X' ∈ digits' := by
      rw [← hrest]
      simp
    exact absurd (hd 'X' hX) (by decide)
  · have hne : 'x' = 'X' := (List.cons.inj (List.cons.inj heq).2).1
    exact absurd hne (by decide)

/-- A code does not look like an option. -/
theorem readCode_head (h : readCode text = .ok request) : text.head? ≠ some '-' := by
  obtain ⟨-, -, -, pre, hpre, digits, rfl, hne, -, hd, -⟩ := readCode_ok.mp h
  simp only [bothPrefixes, documentedPrefixes, List.mem_cons, List.not_mem_nil, or_false] at hpre
  rcases hpre with rfl | rfl | rfl | rfl
  · simp
  · rcases digits with - | ⟨c, digits⟩
    · exact absurd rfl hne
    · have hc := hd c List.mem_cons_self
      intro hdash
      have hcdash : c = '-' := by simpa using hdash
      rw [hcdash] at hc
      exact absurd hc (by decide)
  · simp
  · simp

/-! ## Both arguments -/

theorem parseArgs_ok {first second : String} (hf : first.toList.head? ≠ some '-') :
    parseArgs [first, second] = .ok (bdf, request) ↔
      checkBdf first.toList = .ok bdf ∧ readCode second.toList = .ok request := by
  have hne (option : String) (ho : option.toList.head? = some '-') : first ≠ option := by
    rintro rfl
    exact hf ho
  have hd : ¬(first = "-d" ∨ first = "--disable") := by
    rintro (h | h)
    · exact hne "-d" (by decide) h
    · exact hne "--disable" (by decide) h
  unfold parseArgs
  split
  · rename_i heq
    exact absurd (List.cons.inj heq).1 (hne "-h" (by decide))
  · rename_i heq
    exact absurd (List.cons.inj heq).1 (hne "--help" (by decide))
  · rename_i heq
    obtain ⟨rfl, rfl⟩ := List.cons.inj heq
    rw [if_neg hd, if_neg hf]
    dsimp only
    split
    · rename_i hdash
      constructor
      · intro h
        cases h
      · rintro ⟨-, hcode⟩
        exact absurd hdash (readCode_head hcode)
    · cases checkBdf first.toList with
      | error e => simp [bind, Except.bind]
      | ok bdf' =>
        cases readCode second.toList with
        | error e => simp [bind, Except.bind]
        | ok request' => simp [bind, Except.bind, pure, Except.pure]
  · rename_i heq
    cases heq

/-- The arguments are accepted as documented, unless a valid address comes with a code that has both
prefixes. -/
theorem asDocumented_iff (first second : String) (hf : first.toList.head? ≠ some '-') :
    AsDocumented first second ↔ ¬((∃ bdf, Names first.toList bdf) ∧
      ∃ entry ∈ timeoutCodes, Spells [bothPrefixes] second.toList entry.code) := by
  unfold AsDocumented
  simp only [parseArgs_ok hf, checkBdf_ok, readCode_ok]
  constructor
  · rintro h ⟨⟨bdf, hbdf⟩, entry, hentry, hboth⟩
    have hdoc := (h bdf (.code entry hentry)).mp
      ⟨hbdf, entry, hentry, rfl, spells_cons.mpr (.inl hboth)⟩
    obtain ⟨-, entry', -, -, hspells⟩ := hdoc
    exact not_spells_documented hboth hspells
  · intro h bdf request
    refine and_congr_right fun hbdf => exists_congr fun entry => exists_congr fun hentry =>
      and_congr_right fun _ => ?_
    rw [spells_cons]
    constructor
    · rintro (hboth | hdoc)
      · exact absurd ⟨⟨bdf, hbdf⟩, entry, hentry, hboth⟩ h
      · exact hdoc
    · exact .inr

theorem asDocumented_six : AsDocumented "3a:00.0" "0x6" := by
  refine (asDocumented_iff "3a:00.0" "0x6" (by decide)).mpr ?_
  rintro ⟨-, entry, -, pre, hpre, digits, heq, -⟩
  rw [List.mem_singleton.mp hpre] at heq
  have hlen := congrArg List.length heq
  simp [bothPrefixes] at hlen

/-- `0x0X6` is accepted as 6. -/
theorem not_asDocumented_both : ¬AsDocumented "3a:00.0" "0x0X6" := by
  intro h
  have hparse : parseArgs ["3a:00.0", "0x0X6"] =
      .ok ("0000:3a:00.0".toList, .code ⟨6, 2, "B"⟩ (by decide)) := by
    decide +kernel
  obtain ⟨-, entry, -, -, hspells⟩ := (h _ _).mp hparse
  have hsix : ∀ c ∈ ['6'], isXDigit c = true := by
    intro c hc
    rw [List.mem_singleton.mp hc]
    rfl
  have hboth : Spells [bothPrefixes] "0x0X6".toList 6 :=
    ⟨bothPrefixes, by simp, ['6'], rfl, by simp, by decide, hsix, rfl⟩
  exact not_spells_documented hboth hspells

end DcPerf.Pci.SetCmplto
