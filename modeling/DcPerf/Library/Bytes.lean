import Mathlib.Data.List.Basic
import Mathlib.Data.Nat.Notation

/-!
# Words in byte-addressed memory

A word is stored as its bytes, in the order of the host: the lowest first on a little-endian host,
the highest first on a big-endian one. Memory is a function from addresses to bytes; a write replaces
consecutive bytes and leaves the others alone.
-/

namespace DcPerf.Library

abbrev Byte := BitVec 8

inductive ByteOrder where
  | little
  | big
  deriving DecidableEq

/-- The word of `w` bits with these bytes, the lowest first. -/
def ofBytes (w : ℕ) : List Byte → BitVec w
  | [] => 0
  | b :: bs => (ofBytes w bs <<< 8) ||| b.setWidth w

variable {w n k pos at_ : ℕ} {bs cs : List Byte}

/-- The lowest `n` bytes of a word, the lowest first. -/
def toBytes (n : ℕ) (x : BitVec w) : List Byte :=
  (List.range n).map fun i => x.extractLsb' (8 * i) 8

/-- A word of `n` bytes, in reverse order. -/
def bswap (n : ℕ) (x : BitVec (8 * n)) : BitVec (8 * n) := ofBytes (8 * n) (toBytes n x).reverse

/-- What a host stores for a word of `n` bytes. -/
def ByteOrder.bytes (o : ByteOrder) (n : ℕ) (x : BitVec (8 * n)) : List Byte :=
  match o with
  | .little => toBytes n x
  | .big => (toBytes n x).reverse

/-- What a host loads from `n` bytes. -/
def ByteOrder.word (o : ByteOrder) (n : ℕ) (bs : List Byte) : BitVec (8 * n) :=
  match o with
  | .little => ofBytes (8 * n) bs
  | .big => ofBytes (8 * n) bs.reverse

/-- The other order. -/
def ByteOrder.swap : ByteOrder → ByteOrder
  | .little => .big
  | .big => .little

/-! ## Bytes of a word -/

@[simp] theorem length_toBytes (n : ℕ) (x : BitVec w) : (toBytes n x).length = n := by
  simp [toBytes]

theorem getLsbD_ofBytes (bs : List Byte) {i : ℕ} (h : i < w) :
    (ofBytes w bs).getLsbD i = (bs.getD (i / 8) 0).getLsbD (i % 8) := by
  induction bs generalizing i with
  | nil => simp [ofBytes]
  | cons b bs ih =>
    rw [ofBytes, BitVec.getLsbD_or, BitVec.getLsbD_shiftLeft, BitVec.getLsbD_setWidth]
    rcases Nat.lt_or_ge i 8 with h8 | h8
    · rw [Nat.div_eq_of_lt h8, Nat.mod_eq_of_lt h8]
      simp [h, h8]
    · have hdiv : i / 8 = (i - 8) / 8 + 1 := by omega
      have hmod : i % 8 = (i - 8) % 8 := by omega
      have hrest := ih (i := i - 8) (by omega)
      rw [hdiv, hmod, List.getD_cons_succ, hrest, BitVec.getLsbD_of_ge b i h8]
      simp [h, Nat.not_lt.mpr h8]

theorem getLsbD_toBytes (x : BitVec w) {i j : ℕ} (hi : i < n) (hj : j < 8) :
    ((toBytes n x).getD i 0).getLsbD j = x.getLsbD (8 * i + j) := by
  have hbyte : (toBytes n x).getD i 0 = x.extractLsb' (8 * i) 8 := by
    simp [toBytes, hi]
  rw [hbyte, BitVec.getLsbD_extractLsb']
  simp [hj]

/-- A word is what its bytes say. -/
@[simp] theorem ofBytes_toBytes (n : ℕ) (x : BitVec (8 * n)) : ofBytes (8 * n) (toBytes n x) = x := by
  apply BitVec.eq_of_getLsbD_eq
  intro i hi
  rw [getLsbD_ofBytes _ hi, getLsbD_toBytes x (by omega) (by omega)]
  congr 1
  omega

/-- Bytes are those of the word that they make. -/
theorem toBytes_ofBytes (h : bs.length = n) : toBytes n (ofBytes (8 * n) bs) = bs := by
  apply List.ext_getElem
  · rw [length_toBytes, h]
  · intro i h₁ h₂
    rw [length_toBytes] at h₁
    apply BitVec.eq_of_getLsbD_eq
    intro j hj
    have hlhs := getLsbD_toBytes (ofBytes (8 * n) bs) h₁ hj
    have hdiv : (8 * i + j) / 8 = i := by omega
    have hmod : (8 * i + j) % 8 = j := by omega
    rw [getLsbD_ofBytes bs (by omega), hdiv, hmod] at hlhs
    simpa [List.getD_eq_getElem?_getD, List.getElem?_eq_getElem, h₁, h₂] using hlhs

theorem toBytes_bswap (n : ℕ) (x : BitVec (8 * n)) : toBytes n (bswap n x) = (toBytes n x).reverse :=
  toBytes_ofBytes (by simp)

@[simp] theorem bswap_bswap (n : ℕ) (x : BitVec (8 * n)) : bswap n (bswap n x) = x := by
  rw [bswap, toBytes_bswap, List.reverse_reverse, ofBytes_toBytes]

theorem ofBytes_reverse (h : bs.length = n) :
    ofBytes (8 * n) bs.reverse = bswap n (ofBytes (8 * n) bs) := by
  rw [bswap, toBytes_ofBytes h]

/-! ## Words of a host -/

variable {o : ByteOrder}

@[simp] theorem ByteOrder.length_bytes (o : ByteOrder) (n : ℕ) (x : BitVec (8 * n)) :
    (o.bytes n x).length = n := by
  cases o <;> simp [bytes]

/-- What is stored is loaded again. -/
@[simp] theorem ByteOrder.word_bytes (o : ByteOrder) (n : ℕ) (x : BitVec (8 * n)) :
    o.word n (o.bytes n x) = x := by
  cases o <;> simp [bytes, word]

theorem ByteOrder.bytes_word (o : ByteOrder) (h : bs.length = n) : o.bytes n (o.word n bs) = bs := by
  cases o with
  | little => exact toBytes_ofBytes h
  | big =>
    show (toBytes n (ofBytes (8 * n) bs.reverse)).reverse = bs
    rw [toBytes_ofBytes (by simpa using h), List.reverse_reverse]

/-- A swapped word is stored as the other order stores the word. -/
theorem ByteOrder.bytes_bswap (o : ByteOrder) (n : ℕ) (x : BitVec (8 * n)) :
    o.bytes n (bswap n x) = o.swap.bytes n x := by
  cases o with
  | little => exact toBytes_bswap n x
  | big =>
    show (toBytes n (bswap n x)).reverse = toBytes n x
    rw [toBytes_bswap, List.reverse_reverse]

/-- A loaded word that is swapped is what the other order loads. -/
theorem ByteOrder.bswap_word (o : ByteOrder) (h : bs.length = n) :
    bswap n (o.word n bs) = o.swap.word n bs := by
  cases o with
  | little => exact (ofBytes_reverse h).symm
  | big =>
    show bswap n (ofBytes (8 * n) bs.reverse) = ofBytes (8 * n) bs
    rw [ofBytes_reverse h, bswap_bswap]

/-- Single bytes are stored alike. -/
theorem ByteOrder.bytes_one (o : ByteOrder) (x : Byte) : o.bytes 1 x = [x] := by
  have hlow : toBytes 1 x = [x] := by simp [toBytes]
  cases o with
  | little => exact hlow
  | big =>
    show (toBytes 1 x).reverse = [x]
    rw [hlow, List.reverse_singleton]

theorem ByteOrder.word_one (o : ByteOrder) (x : Byte) : o.word 1 [x] = x := by
  have h := o.word_bytes 1 x
  rwa [o.bytes_one] at h

/-! ## Memory -/

abbrev Memory := ℕ → Byte

namespace Memory

variable {m m' : Memory}

def read (m : Memory) (pos n : ℕ) : List Byte := (List.range n).map fun i => m (pos + i)

def write (m : Memory) (pos : ℕ) (bs : List Byte) : Memory := fun a =>
  if pos ≤ a then bs[a - pos]?.getD (m a) else m a

@[simp] theorem length_read (m : Memory) (pos n : ℕ) : (m.read pos n).length = n := by
  simp [read]

@[simp] theorem write_nil (m : Memory) (pos : ℕ) : m.write pos [] = m := by
  funext a
  simp [write]

/-- A byte that is written. -/
theorem write_of_lt {a : ℕ} (h : a < bs.length) : m.write pos bs (pos + a) = bs[a] := by
  simp [write, h]

/-- A byte that is not. -/
theorem write_of_not {a : ℕ} (h : ¬(pos ≤ a ∧ a < pos + bs.length)) : m.write pos bs a = m a := by
  unfold write
  split
  · rename_i hle
    have hge : bs.length ≤ a - pos := by omega
    simp [hge]
  · rfl

theorem read_congr (h : ∀ i < n, m (pos + i) = m' (pos + i)) : m.read pos n = m'.read pos n :=
  List.map_congr_left fun i hi => h i (List.mem_range.mp hi)

/-- A read finds what was written to where it reads. -/
theorem read_write (m : Memory) (pos : ℕ) (bs : List Byte) :
    (m.write pos bs).read pos bs.length = bs := by
  apply List.ext_getElem
  · simp
  · intro i h₁ h₂
    simp [read, write_of_lt h₂]

theorem read_append (m : Memory) (pos n k : ℕ) :
    m.read pos (n + k) = m.read pos n ++ m.read (pos + n) k := by
  simp [read, List.range_add, Nat.add_assoc, Function.comp_def]

/-- A read of items that follow one another. -/
theorem read_mul (m : Memory) (pos n k : ℕ) :
    m.read pos (n * k) = (List.range k).flatMap fun i => m.read (pos + n * i) n := by
  induction k with
  | zero => rfl
  | succ k ih => rw [Nat.mul_succ, read_append, ih, List.range_succ, List.flatMap_append,
      List.flatMap_singleton]

/-- Writing bytes, and others right after them, is one write. -/
theorem write_write (m : Memory) (pos : ℕ) (bs cs : List Byte) :
    (m.write pos bs).write (pos + bs.length) cs = m.write pos (bs ++ cs) := by
  funext a
  unfold write
  by_cases hpos : pos ≤ a
  · rw [if_pos hpos, if_pos hpos]
    by_cases hlen : pos + bs.length ≤ a
    · have hsub : a - (pos + bs.length) = a - pos - bs.length := by omega
      rw [if_pos hlen, List.getElem?_append_right (by omega), hsub,
        List.getElem?_eq_none (l := bs) (by omega)]
      rfl
    · rw [if_neg hlen, List.getElem?_append_left (by omega)]
  · rw [if_neg hpos, if_neg hpos, if_neg (by omega)]

/-- Writing items one after the other is one write. -/
theorem foldl_write {f : ℕ → List Byte} (hf : ∀ i, (f i).length = n) (m : Memory) (pos k : ℕ) :
    (List.range k).foldl (fun m i => m.write (pos + n * i) (f i)) m =
      m.write pos ((List.range k).flatMap f) := by
  induction k with
  | zero => simp
  | succ k ih =>
    have hlen : ((List.range k).flatMap f).length = n * k := by
      simp [List.length_flatMap, hf, Nat.mul_comm]
    rw [List.range_succ, List.foldl_append, ih, List.flatMap_append, List.flatMap_singleton,
      ← write_write, hlen]
    rfl

/-- A read within what was written finds its part. -/
theorem read_write_within (m : Memory) (pos : ℕ) (as bs cs : List Byte) :
    (m.write pos (as ++ (bs ++ cs))).read (pos + as.length) bs.length = bs := by
  apply List.ext_getElem
  · simp
  · intro i h₁ h₂
    have hi : as.length + i < (as ++ (bs ++ cs)).length := by
      simp only [List.length_append]
      omega
    have hbyte : (m.write pos (as ++ (bs ++ cs))) (pos + (as.length + i)) = (as ++ (bs ++ cs))[as.length + i] :=
      write_of_lt hi
    simp only [read, List.getElem_map, List.getElem_range, Nat.add_assoc, hbyte]
    rw [List.getElem_append_right (by omega), List.getElem_append_left (by omega)]
    congr 1
    omega

/-- Items that were written one after the other are read back. -/
theorem read_items {f : ℕ → List Byte} (hf : ∀ i, (f i).length = n) (m : Memory) (pos : ℕ) {i k : ℕ}
    (hi : i < k) :
    (m.write pos ((List.range k).flatMap f)).read (pos + n * i) n = f i := by
  have hsplit : List.range k = List.range i ++ (i :: (List.range (k - i - 1)).map (i + 1 + ·)) := by
    have hk : k = i + 1 + (k - i - 1) := by omega
    conv_lhs => rw [hk, List.range_add, List.range_succ]
    simp
  have hlen : ((List.range i).flatMap f).length = n * i := by
    simp [List.length_flatMap, hf, Nat.mul_comm]
  have hread := read_write_within m pos ((List.range i).flatMap f) (f i)
    (((List.range (k - i - 1)).map (i + 1 + ·)).flatMap f)
  rw [hlen, hf i] at hread
  rw [hsplit, List.flatMap_append, List.flatMap_cons]
  exact hread

end Memory

end DcPerf.Library
