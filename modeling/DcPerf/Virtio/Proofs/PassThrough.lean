import DcPerf.Library.Groups
import DcPerf.Virtio.PassThrough

/-!
# VFs that are passed through: which VFs the script gives away
-/

namespace DcPerf.Virtio.VmVfs

open DcPerf.Library DcPerf.Library.ShellText

variable {vf vf' : Bdf} {vfs : List Bdf} {g i m : ℕ} {p q : VfPath}

/-! ## One VF -/

/-- A hexadecimal word is not split. -/
theorem isBlank_of_isHexWord {k : ℕ} {text : List Char} (h : isHexWord k text = true) :
    ∀ c ∈ text, isBlank c = false := by
  intro c hc
  have hne (b : Char) (hb : isXDigit b = false) : c ≠ b := by
    rintro rfl
    exact not_mem_of_isHexWord h hb hc
  simp [isBlank, hne ' ' rfl, hne '\t' rfl, hne '\n' rfl]

/-- The text of a VF is one word. -/
theorem Bdf.isWord_text (vf : Bdf) : IsWord vf.text where
  ne_nil := by simp [Bdf.text]
  noBlank := by
    intro c hc
    rw [Bdf.text, List.mem_append, List.mem_cons, List.mem_append, List.mem_cons] at hc
    rcases hc with hc | rfl | hc | rfl | hc
    · exact isBlank_of_isHexWord vf.bus_hex c hc
    · rfl
    · exact isBlank_of_isHexWord vf.dev_hex c hc
    · rfl
    · exact isBlank_of_isHexWord vf.func_hex c hc

theorem isWord_texts (vfs : List Bdf) : ∀ w ∈ vfs.map Bdf.text, IsWord w := by
  intro w hw
  obtain ⟨vf, -, rfl⟩ := List.mem_map.mp hw
  exact vf.isWord_text

theorem newline_not_mem_texts (vfs : List Bdf) : ∀ line ∈ vfs.map Bdf.text, '\n' ∉ line :=
  fun line hline => (isWord_texts vfs line hline).newline_not_mem

/-- The XML file for a VF. -/
def Bdf.xml (vf : Bdf) (idx : ℕ) : List String :=
  hostdev ("0x" ++ String.ofList vf.bus) ("0x" ++ String.ofList vf.dev)
    ("0x" ++ String.ofList vf.func) (tbdfs.getD idx "")

/-- What is cut out of the text of a VF is not changed any more. -/
theorem substitution_hexWord {k : ℕ} {text : List Char} (h : isHexWord k text = true) :
    substitution text = text :=
  substitution_of_not_mem (not_mem_of_isHexWord h rfl)

/-- The fields of a VF are found by its delimiters. -/
theorem vfXml_text (vf : Bdf) (idx : ℕ) : vfXml vf.text idx = vf.xml idx := by
  have hecho : echo (words vf.text) = vf.text := by
    rw [words_word vf.isWord_text]
    simp [echo]
  have hbus : ':' ∉ vf.bus := not_mem_of_isHexWord vf.bus_hex rfl
  have hdev : '.' ∉ vf.dev := not_mem_of_isHexWord vf.dev_hex rfl
  have hfunc : '.' ∉ vf.func := not_mem_of_isHexWord vf.func_hex rfl
  have hrest : ':' ∉ vf.dev ++ '.' :: vf.func := by
    rw [List.mem_append, List.mem_cons]
    rintro (hmem | hmem | hmem)
    · exact not_mem_of_isHexWord vf.dev_hex rfl hmem
    · cases hmem
    · exact not_mem_of_isHexWord vf.func_hex rfl hmem
  have hcolon : cut ':' 1 vf.text = vf.bus := cut_one hbus
  have hafter : cut ':' 2 vf.text = vf.dev ++ '.' :: vf.func := cut_two hbus hrest
  unfold vfXml
  dsimp only
  rw [hecho, hcolon, hafter, cut_one hdev, cut_two hdev hfunc, substitution_hexWord vf.bus_hex,
    substitution_hexWord vf.dev_hex, substitution_hexWord vf.func_hex]
  rfl

@[simp] theorem sourceAddress_xml (vf : Bdf) (idx : ℕ) : sourceAddress (vf.xml idx) = some vf.source :=
  rfl

@[simp] theorem guestAddress_xml (vf : Bdf) (idx : ℕ) :
    guestAddress (vf.xml idx) = some (tbdfs.getD idx "") := rfl

/-! ## Addresses -/

theorem sourceLine_eq (bus dev func : String) : sourceLine bus dev func =
    "    <address domain='0x0000' bus='" ++ bus ++ "' slot='" ++ dev ++ "' function='" ++ func ++
      "'/>" := rfl

theorem sourceLine_inj {bus dev func bus' dev' func' : String} (hbus : bus.length = bus'.length)
    (hdev : dev.length = dev'.length) (h : sourceLine bus dev func = sourceLine bus' dev' func') :
    bus = bus' ∧ dev = dev' ∧ func = func' := by
  rw [sourceLine_eq, sourceLine_eq, String.append_left_inj] at h
  simp only [String.append_assoc] at h
  rw [String.append_right_inj] at h
  obtain ⟨hbus, h⟩ := append_inj_of_length h hbus
  rw [String.append_right_inj] at h
  obtain ⟨hdev, h⟩ := append_inj_of_length h hdev
  rw [String.append_right_inj] at h
  exact ⟨hbus, hdev, h⟩

/-- Different VFs have different addresses. -/
theorem Bdf.source_injective (h : vf.source = vf'.source) : vf = vf' := by
  have hlength (text : List Char) :
      ("0x" ++ String.ofList text).length = "0x".length + text.length := by
    rw [String.length_append, String.length_ofList (l := text)]
  have hbus : vf.bus.length = vf'.bus.length := by
    rw [length_of_isHexWord vf.bus_hex, length_of_isHexWord vf'.bus_hex]
  have hdev : vf.dev.length = vf'.dev.length := by
    rw [length_of_isHexWord vf.dev_hex, length_of_isHexWord vf'.dev_hex]
  obtain ⟨h1, h2, h3⟩ := sourceLine_inj (by rw [hlength, hlength, hbus])
    (by rw [hlength, hlength, hdev]) h
  rw [String.append_right_inj, String.ofList_inj] at h1 h2 h3
  cases vf
  cases vf'
  simp_all

theorem tbdf_eq (slot function : String) : tbdf slot function =
    "    <address type='pci' domain='0x0000' bus='0x00' slot='" ++ slot ++ "' function='" ++
      function ++ "'/>" := rfl

theorem tbdf_inj {slot function slot' function' : String} (hslot : slot.length = slot'.length)
    (h : tbdf slot function = tbdf slot' function') : slot = slot' ∧ function = function' := by
  rw [tbdf_eq, tbdf_eq, String.append_left_inj] at h
  simp only [String.append_assoc] at h
  rw [String.append_right_inj] at h
  obtain ⟨hslot, h⟩ := append_inj_of_length h hslot
  rw [String.append_right_inj] at h
  exact ⟨hslot, h⟩

/-- The rows of the table, one for each slot, have no address twice. -/
theorem nodup_rows (slots functions : List String) (hlength : ∀ slot ∈ slots, slot.length = 4)
    (hslots : slots.Nodup) (hfunctions : functions.Nodup) :
    (slots.flatMap fun slot => functions.map (tbdf slot)).Nodup := by
  rw [List.nodup_flatMap]
  constructor
  · intro slot _
    exact hfunctions.map fun _ _ h => (tbdf_inj rfl h).2
  · refine hslots.imp_of_mem fun {slot slot'} hslot hslot' hne line hline hline' => ?_
    obtain ⟨function, -, rfl⟩ := List.mem_map.mp hline
    obtain ⟨function', -, h⟩ := List.mem_map.mp hline'
    exact hne (tbdf_inj (by rw [hlength slot' hslot', hlength slot hslot]) h).1.symm

theorem tbdfs_nodup : tbdfs.Nodup := by
  have hrest := nodup_rows ["0x05", "0x06", "0x07", "0x08", "0x09", "0x0a", "0x0b", "0x0c", "0x0d",
    "0x0e", "0x0f", "0x10"] ["0x0", "0x1", "0x2", "0x3", "0x4", "0x5", "0x6", "0x7"]
    (by decide) (by decide) (by decide)
  have hslots : ∀ slot ∈ ["0x05", "0x06", "0x07", "0x08", "0x09", "0x0a", "0x0b", "0x0c", "0x0d",
      "0x0e", "0x0f", "0x10"], slot.length = "0x04".length ∧ slot ≠ "0x04" := by decide
  refine List.nodup_append.mpr ⟨?_, hrest, ?_⟩
  · exact List.Nodup.map (fun _ _ h => (tbdf_inj rfl h).2) (by decide)
  · rintro line hline line' hline' rfl
    obtain ⟨function, -, rfl⟩ := List.mem_map.mp hline
    obtain ⟨slot, hslot, hmem⟩ := List.mem_flatMap.mp hline'
    obtain ⟨function', -, h⟩ := List.mem_map.mp hmem
    exact (hslots slot hslot).2 (tbdf_inj (hslots slot hslot).1 h).1

/-- Places that the table reaches have different addresses. -/
theorem guest_inj {j : ℕ} (hi : i < 100) (hj : j < 100)
    (h : tbdfs.getD i "" = tbdfs.getD j "") : i = j := by
  have hi' : i < tbdfs.length := hi
  have hj' : j < tbdfs.length := hj
  rw [List.getD_eq_getElem?_getD, List.getD_eq_getElem?_getD, List.getElem?_eq_getElem hi',
    List.getElem?_eq_getElem hj'] at h
  exact tbdfs_nodup.getElem_inj_iff.mp h

/-- Two places are not one file. -/
theorem VfPath.text_injective (h : p.text = q.text) : p = q := by
  have htext (r : VfPath) : r.text = r.dir.repr ++ "/vf" ++ r.idx.repr ++ ".xml" := rfl
  rw [htext, htext, String.append_left_inj, ← String.toList_inj] at h
  simp only [String.toList_append, Nat.toList_repr, List.append_assoc] at h
  rw [show "/vf".toList = ['/', 'v', 'f'] from rfl] at h
  obtain ⟨hdir, h⟩ := digits_append_cons_inj rfl h
  have hidx := toDigits_injective (List.cons.inj (List.cons.inj h).2).2
  cases p
  cases q
  simp_all

/-! ## One group -/

/-- The files of a group, whose text is what `array` holds. -/
theorem gg_unlines (vfs : List Bdf) (dir : ℕ) :
    gg (substitution (unlines (vfs.map Bdf.text))) dir =
      (List.range vfs.length).map fun idx =>
        (⟨dir, idx⟩, vfXml ((vfs.map Bdf.text).getD idx []) idx) := by
  unfold gg
  dsimp only
  rw [words_substitution, words_substitution, words_unlines (isWord_texts vfs),
    words_echo (isWord_texts vfs), List.length_map]

/-! ## All groups -/

/-- There are as many groups as can be filled. -/
theorem arrayNumber_natCast (g n : ℕ) : arrayNumber g n = (n / g : ℕ) := by
  simp [arrayNumber]

theorem seq_natCast (k : ℕ) : seq ((k : ℤ) - 1) = List.range k := by
  simp [seq]

theorem lineCount_listing (vfs : List Bdf) : lineCount (listing vfs) = vfs.length := by
  rw [listing, lineCount_unlines (newline_not_mem_texts vfs), List.length_map]

/-- The lines of a group. -/
theorem lookup_array (hi : i < vfs.length / g) :
    (array g (listing vfs)).lookup i =
      some (substitution (unlines (((vfs.drop (i * g)).take g).map Bdf.text))) := by
  have hpos : 0 < g := by
    by_contra hzero
    rw [Nat.eq_zero_of_not_pos hzero, Nat.div_zero] at hi
    exact Nat.not_lt_zero _ hi
  have hkeys : ((List.range (vfs.length / g)).map id).Nodup := by
    rw [List.map_id]
    exact List.nodup_range
  have hfirst : ((i : ℤ) * g + 1).toNat = i * g + 1 := by
    rw [← Int.natCast_mul]
    omega
  have hlast : ((i : ℤ) * g + 1 + g - 1).toNat = i * g + g := by
    rw [← Int.natCast_mul]
    omega
  unfold array
  rw [lineCount_listing, arrayNumber_natCast, seq_natCast, Dict.lookup_ofList_iff hkeys]
  refine ⟨i, List.mem_range.mpr hi, rfl, ?_⟩
  dsimp only
  rw [hfirst, hlast, listing, sedPrint_unlines (newline_not_mem_texts vfs) (by omega),
    Nat.add_sub_cancel, List.map_take, List.map_drop, Nat.add_right_comm, Nat.add_sub_cancel_left]

/-- A group that can be filled is full. -/
theorem length_group (hi : i < vfs.length / g) : ((vfs.drop (i * g)).take g).length = g := by
  have hle : (i + 1) * g ≤ vfs.length :=
    Nat.le_trans (Nat.mul_le_mul_right g hi) (Nat.div_mul_le_self _ _)
  rw [Nat.succ_mul] at hle
  rw [List.length_take, List.length_drop]
  omega

/-- Where each VF goes: the `m`-th is dealt to place `m % g` of group `m / g`, as far as groups are
filled. -/
def dealt (vfs : List Bdf) (g : ℕ) : List (Bdf × ℕ) := (vfs.take (vfs.length / g * g)).zipIdx

theorem gg_group (hi : i < vfs.length / g) :
    gg (((array g (listing vfs)).lookup i).getD []) i = (List.range g).map fun idx =>
      (⟨i, idx⟩, vfXml ((vfs.map Bdf.text).getD (i * g + idx) []) idx) := by
  rw [lookup_array hi, Option.getD_some, gg_unlines, length_group hi]
  refine List.map_congr_left fun idx hidx => ?_
  have hlt : idx < g := List.mem_range.mp hidx
  rw [List.getD_eq_getElem?_getD, List.getD_eq_getElem?_getD, List.map_take, List.map_drop,
    List.getElem?_take_of_lt hlt, List.getElem?_drop]

/-- The script writes one file for each VF that is dealt. -/
theorem main_listing {arg : List Char} (hg : groupNumber arg = g) (vfs : List Bdf) :
    main arg (listing vfs) =
      (dealt vfs g).map fun x => (⟨x.2 / g, x.2 % g⟩, x.1.xml (x.2 % g)) := by
  unfold main
  dsimp only
  rw [hg, lineCount_listing, arrayNumber_natCast, seq_natCast]
  have hgroups : (List.range (vfs.length / g)).flatMap
        (fun i => gg (((array g (listing vfs)).lookup i).getD []) i) =
      (List.range (vfs.length / g)).flatMap fun i => (List.range g).map fun idx =>
        ((⟨i, idx⟩, vfXml ((vfs.map Bdf.text).getD (i * g + idx) []) idx) : VfPath × List String) :=
    List.flatMap_congr fun i hi => gg_group (List.mem_range.mp hi)
  rw [hgroups, flatMap_range_groups]
  have hle : vfs.length / g * g ≤ vfs.length := Nat.div_mul_le_self _ _
  refine List.ext_getElem ?_ fun m hm hm' => ?_
  · simp [dealt, hle]
  · have hlt : m < vfs.length / g * g := by simpa using hm
    have hm : m / g * g + m % g = m := Nat.div_add_mod' m g
    simp [dealt, hm, List.getElem?_eq_getElem (Nat.lt_of_lt_of_le hlt hle), vfXml_text]

/-! ## The files in the end -/

theorem mem_dealt {x : Bdf × ℕ} :
    x ∈ dealt vfs g ↔ x.2 < vfs.length / g * g ∧ vfs[x.2]? = some x.1 := by
  rw [dealt, List.mem_zipIdx_iff_getElem?, List.getElem?_take]
  by_cases h : x.2 < vfs.length / g * g
  · simp [h]
  · simp [h]

/-- No file is written twice. -/
theorem nodup_dealt (vfs : List Bdf) (g : ℕ) :
    ((dealt vfs g).map fun x => (⟨x.2 / g, x.2 % g⟩ : VfPath)).Nodup := by
  have hidx : ((dealt vfs g).map Prod.snd).Nodup := by
    rw [dealt, List.zipIdx_map_snd]
    exact List.nodup_range'
  have hmap : (dealt vfs g).map (fun x => (⟨x.2 / g, x.2 % g⟩ : VfPath)) =
      ((dealt vfs g).map Prod.snd).map fun m => ⟨m / g, m % g⟩ := by
    rw [List.map_map]
    rfl
  rw [hmap]
  refine hidx.map fun m n h => ?_
  injection h with hdiv hmod
  exact eq_of_div_mod hdiv hmod

variable {arg : List Char} {xml : List String}

theorem files_listing (hg : groupNumber arg = g) (vfs : List Bdf) : files arg (listing vfs) =
    Dict.ofList (fun x => ⟨x.2 / g, x.2 % g⟩) (fun x => x.1.xml (x.2 % g)) (dealt vfs g) := by
  rw [files, main_listing hg]
  simp [Dict.ofList, List.foldl_map]

/-- What a file holds. -/
theorem lookup_files (hg : groupNumber arg = g) :
    (files arg (listing vfs)).lookup p = some xml ↔ ∃ m vf, m < vfs.length / g * g ∧
      vfs[m]? = some vf ∧ p = ⟨m / g, m % g⟩ ∧ xml = vf.xml (m % g) := by
  rw [files_listing hg, Dict.lookup_ofList_iff (nodup_dealt vfs g)]
  constructor
  · rintro ⟨x, hx, rfl, rfl⟩
    obtain ⟨hlt, hvf⟩ := mem_dealt.mp hx
    exact ⟨x.2, x.1, hlt, hvf, rfl, rfl⟩
  · rintro ⟨m, vf, hlt, hvf, rfl, rfl⟩
    exact ⟨(vf, m), mem_dealt.mpr ⟨hlt, hvf⟩, rfl, rfl⟩

/-- How many files have a VF as their source: as many as there are in the groups that are filled. -/
theorem count_source (hg : groupNumber arg = g) (vfs : List Bdf) (vf : Bdf) :
    (files arg (listing vfs)).countValues (fun xml => sourceAddress xml = some vf.source) =
      (vfs.take (vfs.length / g * g)).count vf := by
  have hfst : (dealt vfs g).map Prod.fst = vfs.take (vfs.length / g * g) := List.zipIdx_map_fst _ _
  rw [files_listing hg, Dict.countValues_ofList (nodup_dealt vfs g), ← hfst, List.count,
    List.countP_map]
  refine List.countP_congr fun x _ => ?_
  simp only [sourceAddress_xml, Option.some_inj, decide_eq_true_eq, Function.comp_apply, beq_iff_eq]
  constructor
  · exact Bdf.source_injective
  · intro h
    rw [h]

/-- All VFs are given away exactly if the groups use up the list. -/
theorem once_iff (hg : groupNumber arg = g) (hvfs : vfs.Nodup) :
    (∀ vf ∈ vfs, (files arg (listing vfs)).countValues
      (fun xml => sourceAddress xml = some vf.source) = 1) ↔ g ∣ vfs.length := by
  simp only [count_source hg]
  rw [count_take_eq_one_iff hvfs, le_div_mul_iff]

/-- The VFs that no file has are those that `tail_array_number` counts. -/
theorem lost_eq (hg : groupNumber arg = g) (hvfs : vfs.Nodup) :
    vfs.filter (fun vf => (files arg (listing vfs)).countValues
      (fun xml => sourceAddress xml = some vf.source) = 0) = vfs.drop (vfs.length / g * g) ∧
      ((vfs.drop (vfs.length / g * g)).length : ℤ) = tailArrayNumber g vfs.length := by
  have hle : vfs.length / g * g ≤ vfs.length := Nat.div_mul_le_self _ _
  constructor
  · simp only [count_source hg]
    exact filter_count_take hvfs _
  · rw [tailArrayNumber, arrayNumber_natCast, List.length_drop, Int.ofNat_sub hle, Int.natCast_mul]

/-- The place of a file tells where its VF is in the list. -/
theorem getElem?_of_source (hg : groupNumber arg = g)
    (hfile : (files arg (listing vfs)).lookup p = some xml)
    (hsource : sourceAddress xml = some vf.source) :
    ∃ m, vfs[m]? = some vf ∧ p = ⟨m / g, m % g⟩ := by
  obtain ⟨m, vf', -, hvf, rfl, rfl⟩ := (lookup_files hg).mp hfile
  rw [sourceAddress_xml, Option.some_inj] at hsource
  rw [Bdf.source_injective hsource] at hvf
  exact ⟨m, hvf, rfl⟩

/-- Files of VFs that follow each other do so too. -/
theorem before_of_consecutive (hg : groupNumber arg = g) (hvfs : vfs.Nodup) {pre post : List Bdf}
    {a b : Bdf} (hab : vfs = pre ++ a :: b :: post) {xml' : List String}
    (hp : (files arg (listing vfs)).lookup p = some xml) (ha : sourceAddress xml = some a.source)
    (hq : (files arg (listing vfs)).lookup q = some xml') (hb : sourceAddress xml' = some b.source) :
    p.Before q := by
  obtain ⟨m, hm, rfl⟩ := getElem?_of_source hg hp ha
  obtain ⟨n, hn, rfl⟩ := getElem?_of_source hg hq hb
  have hfirst : vfs[pre.length]? = some a := by simp [hab]
  have hsecond : vfs[pre.length + 1]? = some b := by simp [hab]
  have hlength : pre.length + 1 < vfs.length := by
    simp [hab]
  have hmeq : pre.length = m := (List.getElem?_inj (by omega) hvfs).mp (by rw [hfirst, hm])
  have hneq : pre.length + 1 = n := (List.getElem?_inj hlength hvfs).mp (by rw [hsecond, hn])
  exact div_mod_lt (by omega)

/-- A directory has no more files than there are numbers for them. -/
theorem countP_dir_le {paths : List VfPath} (hn : paths.Nodup) (h : ∀ p ∈ paths, p.idx < g)
    (dir : ℕ) : (paths.countP fun p => p.dir = dir) ≤ g := by
  have hdir : ∀ p ∈ paths.filter (fun p => p.dir = dir), p ∈ paths ∧ p.dir = dir := by
    intro p hp
    obtain ⟨hmem, hpdir⟩ := List.mem_filter.mp hp
    exact ⟨hmem, of_decide_eq_true hpdir⟩
  have hidx : ((paths.filter fun p => p.dir = dir).map VfPath.idx).Nodup := by
    refine (hn.filter _).map_on fun p hp q hq hpq => ?_
    have hpdir := (hdir p hp).2
    have hqdir := (hdir q hq).2
    cases p
    cases q
    simp_all
  have hsub : (paths.filter fun p => p.dir = dir).map VfPath.idx ⊆ List.range g := by
    intro idx hidx
    obtain ⟨p, hp, rfl⟩ := List.mem_map.mp hidx
    exact List.mem_range.mpr (h p (hdir p hp).1)
  have hlength := (List.subperm_of_subset hidx hsub).length_le
  rwa [List.length_map, List.length_range, ← List.countP_eq_length_filter] at hlength

theorem bounded_files (hg : groupNumber arg = g) (hpos : 0 < g) (dir : ℕ) :
    ((files arg (listing vfs)).keys.countP fun p => p.dir = dir) ≤ g := by
  refine countP_dir_le (files arg (listing vfs)).keys_nodup (fun p hp => ?_) dir
  obtain ⟨xml, hxml⟩ := Option.isSome_iff_exists.mp (AList.lookup_isSome.mpr (AList.mem_keys.mpr hp))
  obtain ⟨m, -, -, -, rfl, -⟩ := (lookup_files hg).mp hxml
  exact Nat.mod_lt m hpos

/-- In a directory the table gives every file an address of its own. -/
theorem guests_files (hg : groupNumber arg = g) (hpos : 0 < g) (hle : g ≤ 100) {xml' : List String}
    (hp : (files arg (listing vfs)).lookup p = some xml)
    (hq : (files arg (listing vfs)).lookup q = some xml') (hdir : p.dir = q.dir)
    (hguest : guestAddress xml = guestAddress xml') : p = q := by
  obtain ⟨m, vf, -, -, rfl, rfl⟩ := (lookup_files hg).mp hp
  obtain ⟨n, vf', -, -, rfl, rfl⟩ := (lookup_files hg).mp hq
  rw [guestAddress_xml, guestAddress_xml, Option.some_inj] at hguest
  have hm := Nat.mod_lt m hpos
  have hn := Nat.mod_lt n hpos
  have hidx := guest_inj (by omega) (by omega) hguest
  rw [VfPath.mk.injEq]
  exact ⟨hdir, hidx⟩

/-! ## Passing through -/

theorem groupNumber_eq (hle : g ≤ 100) (harg : shellNumber arg = some (BitVec.ofNat 64 g)) :
    groupNumber arg = g := by
  have hnat : (BitVec.ofNat 64 g).toNat = g := by
    rw [BitVec.toNat_ofNat]
    omega
  rw [groupNumber, harg]
  dsimp only
  rw [BitVec.toInt_eq_toNat_of_lt (by omega), hnat]

/-- The script passes all VFs through if and only if they come in full groups. -/
theorem passedThrough_iff (hpos : 1 ≤ g) (hle : g ≤ 100)
    (harg : shellNumber arg = some (BitVec.ofNat 64 g)) (hvfs : vfs.Nodup) :
    PassedThrough vfs g (files arg (listing vfs)) ↔ g ∣ vfs.length := by
  have hg := groupNumber_eq hle harg
  rw [← once_iff hg hvfs]
  constructor
  · exact PassedThrough.once
  · intro honce
    exact {
      once := honce
      inOrder := fun _ _ _ _ hab _ _ _ _ hp ha hq hb =>
        before_of_consecutive hg hvfs hab hp ha hq hb
      bounded := bounded_files hg hpos
      guests := fun _ _ _ _ hp hq hdir hguest => guests_files hg hpos hle hp hq hdir hguest }

/-- A VF with bus 3b and device 00. -/
def vf3b (func : Char) (h : isHexWord 1 [func] = true) : Bdf :=
  ⟨['3', 'b'], ['0', '0'], [func], by decide, by decide, h⟩

def fourVfs : List Bdf :=
  [vf3b '2' (by decide), vf3b '3' (by decide), vf3b '4' (by decide), vf3b '5' (by decide)]

theorem passedThrough_four : PassedThrough fourVfs 2 (files ['2'] (listing fourVfs)) :=
  (passedThrough_iff (by decide) (by decide) rfl (by decide)).mpr (by decide)

/-- Of three VFs in groups of two, the last one is not passed through. -/
theorem not_passedThrough_three :
    ¬PassedThrough (fourVfs.take 3) 2 (files ['2'] (listing (fourVfs.take 3))) := by
  intro h
  have hg : groupNumber ['2'] = (2 : ℕ) := groupNumber_eq (by decide) rfl
  have hdvd : 2 ∣ (fourVfs.take 3).length := (once_iff hg (by decide)).mp h.once
  exact absurd hdvd (by decide)

end DcPerf.Virtio.VmVfs
