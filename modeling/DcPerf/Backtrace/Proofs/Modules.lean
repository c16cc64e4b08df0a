import DcPerf.Backtrace.Modules
import DcPerf.Library.LastWins

/-!
# Modules and the addresses in them: the module that a lookup finds
-/

namespace DcPerf.Backtrace

open DcPerf.Library

variable {modules others : List DlPhdrInfo} {info other : DlPhdrInfo} {address : Address}
  {exe : String} {dl dl' : DlAddressSearch}

/-! ## One module -/

/-- The test of a segment, where the end of the segment does not wrap. -/
theorem Phdr.contains_iff {phdr : Phdr} {base : Address} (address : Address)
    (h : (phdr.vaddr + base).toNat + phdr.memsz.toNat < 2 ^ 64) :
    phdr.Contains base address ↔
      phdr.vaddr + base ≤ address ∧ address < phdr.vaddr + base + phdr.memsz := by
  have hend : (phdr.vaddr + base + phdr.memsz).toNat =
      (phdr.vaddr + base).toNat + phdr.memsz.toNat := by
    rw [BitVec.toNat_add, Nat.mod_eq_of_lt h]
  rw [BitVec.le_def, BitVec.lt_def, hend]
  rfl

/-- The search record when the last match is `found`. -/
def record (address : Address) (found : Option DlPhdrInfo) : DlAddressSearch :=
  ⟨address, found.map DlPhdrInfo.name, (found.map DlPhdrInfo.addr).getD 0#64⟩

/-- A module with the address replaces what has been found: its headers all write the same. -/
theorem dlMatchAddress_record (hfits : info.Fits) (found : Option DlPhdrInfo) :
    dlMatchAddress info (record address found) =
      record address (if info.Contains address then some info else found) := by
  have hscan : dlMatchAddress info (record address found) = record address
      ((scan (·.Contains info.addr address) info.phdr).elim found fun _ => some info) := by
    refine foldl_scan (fun hit : Option Phdr => record address (hit.elim found fun _ => some info))
      fun hit phdr hphdr => ?_
    have htest := Phdr.contains_iff address (hfits phdr hphdr)
    by_cases hcontains : phdr.Contains info.addr address
    · rw [if_pos hcontains]
      exact if_pos (htest.mp hcontains)
    · rw [if_neg hcontains]
      exact if_neg (mt htest.mpr hcontains)
  rw [hscan]
  cases hs : scan (·.Contains info.addr address) info.phdr with
  | none =>
    have hnone : ¬info.Contains address := by
      rintro ⟨phdr, hphdr, hcontains⟩
      exact scan_eq_none.mp hs phdr hphdr hcontains
    rw [if_neg hnone]
    rfl
  | some phdr =>
    have hcontains : info.Contains address := ⟨phdr, mem_of_scan hs⟩
    rw [if_pos hcontains]
    rfl

/-! ## All modules -/

/-- The lookup reports the last module with the address. -/
theorem dlLookupAddress_eq (h : ∀ info ∈ modules, info.Fits) (exe : String) (dl : DlAddressSearch) :
    dlLookupAddress exe modules dl = match scan (·.Contains dl.address) modules with
      | none => (false, ⟨dl.address, none, 0#64⟩)
      | some info =>
        (true, ⟨dl.address, some (if info.name = "" then exe else info.name), info.addr⟩) := by
  have hscan : modules.foldl (fun dl info => dlMatchAddress info dl) (record dl.address none) =
      record dl.address (scan (·.Contains dl.address) modules) :=
    foldl_scan (record dl.address) fun found info hinfo =>
      dlMatchAddress_record (h info hinfo) found
  unfold dlLookupAddress
  dsimp only
  rw [show (⟨dl.address, none, 0#64⟩ : DlAddressSearch) = record dl.address none from rfl, hscan]
  cases scan (·.Contains dl.address) modules with
  | none => rfl
  | some info => simp [record, String.isEmpty_iff]

/-- No two modules have the address. -/
theorem Loaded.atMostOne (h : Loaded modules) (address : Address) :
    AtMostOne (·.Contains address) modules :=
  h.disjoint.imp fun hdisjoint => hdisjoint address

theorem Loaded.finds (h : Loaded modules) (exe : String) (dl : DlAddressSearch) :
    Finds exe modules dl.address (dlLookupAddress exe modules dl) := by
  rw [dlLookupAddress_eq h.fits]
  cases hscan : scan (·.Contains dl.address) modules with
  | none => exact ⟨by simpa using scan_eq_none.mp hscan, by simp⟩
  | some info =>
    obtain ⟨hinfo, hcontains⟩ := mem_of_scan hscan
    refine ⟨?_, fun _ => ⟨info, (h.atMostOne dl.address).filter hscan, rfl, rfl⟩⟩
    constructor
    · intro hfail
      cases hfail
    · intro hnone
      exact absurd hcontains (hnone info hinfo)

/-! ## Order -/

theorem SameModule.contains_iff (h : SameModule info other) :
    info.Contains address ↔ other.Contains address := by
  unfold DlPhdrInfo.Contains
  simp only [h.phdr.mem_iff, h.addr]

theorem SameModule.fits (h : SameModule info other) (hfits : info.Fits) : other.Fits := by
  intro phdr hphdr
  rw [← h.addr]
  exact hfits phdr (h.phdr.mem_iff.mpr hphdr)

theorem Reordered.fits (h : Reordered modules others) (hfits : ∀ info ∈ modules, info.Fits) :
    ∀ info ∈ others, info.Fits := by
  obtain ⟨permuted, hperm, hsame⟩ := h
  have hpermuted : ∀ info ∈ permuted, info.Fits := fun info hinfo =>
    hfits info (hperm.mem_iff.mpr hinfo)
  clear hperm
  induction hsame with
  | nil => simp
  | cons hsame _ ih =>
    rintro info (_ | ⟨_, hinfo⟩)
    · exact hsame.fits (hpermuted _ List.mem_cons_self)
    · exact ih (fun info hinfo => hpermuted info (List.mem_cons_of_mem _ hinfo)) info hinfo

/-- The module that is found is the same one, however the modules are listed. -/
theorem Loaded.scan_reordered (hl : Loaded modules) (h : Reordered modules others)
    (address : Address) {α : Type} {f : DlPhdrInfo → α}
    (hf : ∀ info other, SameModule info other → f info = f other) :
    (scan (·.Contains address) others).map f = (scan (·.Contains address) modules).map f := by
  obtain ⟨permuted, hperm, hsame⟩ := h
  have hsame' : List.Forall₂ (fun info other =>
      (info.Contains address ↔ other.Contains address) ∧ f info = f other) permuted others :=
    hsame.imp fun info other h => ⟨h.contains_iff, hf info other h⟩
  rw [← scan_forall₂ hsame', (hl.atMostOne address).scan_perm hperm]

/-- The order of the modules and of their headers, and what the search record held before, do not
matter. -/
theorem Loaded.lookup_reordered (hl : Loaded modules) (h : Reordered modules others) (exe : String)
    (hdl : dl'.address = dl.address) :
    dlLookupAddress exe others dl' = dlLookupAddress exe modules dl := by
  have hfound : (scan (·.Contains dl.address) others).map (fun info => (info.name, info.addr)) =
      (scan (·.Contains dl.address) modules).map fun info => (info.name, info.addr) :=
    hl.scan_reordered h dl.address fun info other hsame => by rw [hsame.name, hsame.addr]
  rw [dlLookupAddress_eq hl.fits, dlLookupAddress_eq (h.fits hl.fits), hdl]
  cases hm : scan (·.Contains dl.address) modules with
  | none =>
    rw [hm, Option.map_none, Option.map_eq_none_iff] at hfound
    rw [hfound]
  | some info =>
    rw [hm, Option.map_some, Option.map_eq_some_iff] at hfound
    obtain ⟨other, hother, heq⟩ := hfound
    obtain ⟨hname, haddr⟩ := Prod.mk.inj heq
    simp only [hother, hname, haddr]

/-! ## The path of the executable -/

/-- A path that fits the buffer is read as it is. -/
theorem getExe_eq {path : String} (h : path.length < 1024) : getExe (some path) = path := by
  have hle : path.toList.length ≤ 1024 - 1 := by
    rw [String.length_toList]
    omega
  simp [getExe, List.take_of_length_le hle]

/-- What is read fits the buffer. -/
theorem length_getExe (link : Option String) : (getExe link).length < 1024 := by
  cases link with
  | none => simp [getExe]
  | some target =>
    rw [← String.length_toList, getExe, String.toList_ofList, List.length_take]
    omega

/-- Of the paths that can be read, those that fit the buffer are known. -/
theorem getExe_eq_iff {path : String} : getExe (some path) = path ↔ path.length < 1024 := by
  constructor
  · intro h
    rw [← h]
    exact length_getExe (some path)
  · exact getExe_eq

/-- A lookup that finds the module without a name stores one path for it. -/
theorem Finds.path_unique {path path' : String} {result : Bool × DlAddressSearch}
    (h : Finds path modules address result) (h' : Finds path' modules address result)
    (hinfo : info ∈ modules) (hcontains : info.Contains address) (hname : info.name = "") :
    path = path' := by
  have htrue : result.1 = true := by
    by_contra hfalse
    exact h.fails_iff.mp (Bool.eq_false_iff.mpr hfalse) info hinfo hcontains
  have hmem : info ∈ modules.filter (·.Contains address) :=
    List.mem_filter.mpr ⟨hinfo, by simpa using hcontains⟩
  obtain ⟨found, hfound, -, hpath⟩ := h.found htrue
  obtain ⟨found', hfound', -, hpath'⟩ := h'.found htrue
  rw [hfound, List.mem_singleton] at hmem
  rw [hfound, List.singleton_inj] at hfound'
  subst hmem hfound'
  simpa [hname, hpath] using hpath'

/-! ## Lookups -/

/-- The lookup finds the module of an address, whatever the order of the modules and of their headers
and whatever the search record held before; the module without a name goes by what can be read of the
executable's path. -/
theorem lookup_finds (link : Option String) (h : Loaded modules) (dl : DlAddressSearch) :
    Finds (getExe link) modules dl.address (dlLookupAddress (getExe link) modules dl) ∧
      ∀ others dl', Reordered modules others → dl'.address = dl.address →
        dlLookupAddress (getExe link) others dl' = dlLookupAddress (getExe link) modules dl :=
  ⟨h.finds _ dl, fun _ _ hothers hdl => h.lookup_reordered hothers _ hdl⟩

/-- An executable whose one segment has the addresses from 4096 to 8191. -/
def program : DlPhdrInfo := ⟨0#64, "", [⟨0x1000#64, 0x1000#64⟩]⟩

/-- A library above it, with an empty segment below its other one. -/
def library : DlPhdrInfo := ⟨0x4000#64, "libc.so.6", [⟨0#64, 0#64⟩, ⟨0x1000#64, 0x2000#64⟩]⟩

theorem loaded_program_library : Loaded [program, library] where
  fits := by simp [DlPhdrInfo.Fits, program, library]
  disjoint := by
    rw [List.pairwise_pair]
    rintro address ⟨hprogram, hlibrary⟩
    simp only [DlPhdrInfo.Contains, Phdr.Contains, program, library] at hprogram hlibrary
    simp at hprogram hlibrary
    omega

theorem lookup_finds_library :
    Finds (getExe (some "/bin/sh")) [program, library] 0x5000#64
        (dlLookupAddress (getExe (some "/bin/sh")) [program, library] ⟨0x5000#64, none, 0#64⟩) ∧
      dlLookupAddress (getExe (some "/bin/sh")) [library, program] ⟨0x5000#64, some "", 0#64⟩ =
        dlLookupAddress (getExe (some "/bin/sh")) [program, library] ⟨0x5000#64, none, 0#64⟩ := by
  obtain ⟨hfinds, hreordered⟩ :=
    lookup_finds (some "/bin/sh") loaded_program_library ⟨0x5000#64, none, 0#64⟩
  have hsame : ∀ info ∈ [library, program], SameModule info info := fun info _ =>
    ⟨rfl, rfl, List.Perm.refl _⟩
  exact ⟨hfinds, hreordered _ _ ⟨_, List.Perm.swap _ _ _, List.forall₂_same.mpr hsame⟩ rfl⟩

/-- The address behind the last one of the program is not in it. -/
example : dlLookupAddress "/bin/sh" [library, program] ⟨0x2000#64, none, 0#64⟩ =
    (false, ⟨0x2000#64, none, 0#64⟩) := by
  decide

/-- A directory with a long name. -/
def deepPath (n : ℕ) : String := String.ofList ('/' :: List.replicate n 'd')

theorem length_deepPath (n : ℕ) : (deepPath n).length = n + 1 := by
  rw [deepPath, String.length_ofList, List.length_cons, List.length_replicate]

/-- An executable with a path of 1024 bytes is known by one that does not lead to it. -/
theorem deepPath_not_found : Loaded [program, library] ∧
    ¬Finds (deepPath 1023) [program, library] 0x1800#64 (dlLookupAddress
      (getExe (some (deepPath 1023))) [program, library] ⟨0x1800#64, none, 0#64⟩) := by
  refine ⟨loaded_program_library, fun hfinds => ?_⟩
  have hown := loaded_program_library.finds (getExe (some (deepPath 1023))) ⟨0x1800#64, none, 0#64⟩
  have hpath : deepPath 1023 = getExe (some (deepPath 1023)) :=
    hfinds.path_unique hown List.mem_cons_self (by decide) rfl
  have hlength := getExe_eq_iff.mp hpath.symm
  rw [length_deepPath] at hlength
  omega

end DcPerf.Backtrace
