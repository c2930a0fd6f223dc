import MaanyMpc.Library.Bits
import MaanyMpc.Library.Register
import Mathlib.Data.List.Nodup

/-! # Bech32

A text of a readable part, a separator and symbols of five bits, the last six of which are a
checksum. `decode` makes every check of the format, `parse` those that do not depend on the
length and on the alphabet of the readable part. -/

namespace Bech32

def charset : List Char :=
  ['q', 'p', 'z', 'r', 'y', '9', 'x', '8', 'g', 'f', '2', 't', 'v', 'd', 'w', '0',
    's', '3', 'j', 'n', '5', '4', 'k', 'h', 'c', 'e', '6', 'm', 'u', 'a', '7', 'l']

def generators : List ℕ := [0x3b6a57b2, 0x26508e6d, 0x1ea119fa, 0x3d4233dd, 0x2a1462b3]

/-! ## The checksum -/

/-- The generators of those of the five bits that are set. -/
def taps (top : ℕ) : ℕ :=
  (generators.zipIdx.map fun g => if top.testBit g.2 then g.1 else 0).foldl (· ^^^ ·) 0

def shift (chk : ℕ) : ℕ := (chk &&& 0x1ffffff) <<< 5 ^^^ taps (chk >>> 25)

def polymod (values : List ℕ) : ℕ := Register.run shift 1 values

/-- The readable part, as values. -/
def expand (hrp : List Char) : List ℕ :=
  hrp.map (·.toNat >>> 5) ++ 0 :: hrp.map (·.toNat &&& 31)

/-- Six symbols of a register. -/
def symbolsOf (chk : ℕ) : List ℕ :=
  (List.range 6).map fun p => chk >>> (5 * (5 - p)) &&& 31

def checksum (hrp : List Char) (data : List ℕ) : List ℕ :=
  symbolsOf (polymod (expand hrp ++ data ++ List.replicate 6 0) ^^^ 1)

@[simp] theorem length_checksum (hrp : List Char) (data : List ℕ) :
    (checksum hrp data).length = 6 := rfl

theorem foldl_xor (xs : List ℕ) (s : ℕ) :
    xs.foldl (· ^^^ ·) s = s ^^^ xs.foldl (· ^^^ ·) 0 := by
  induction xs generalizing s with
  | nil => exact (Nat.xor_zero s).symm
  | cons x xs ih =>
      rw [List.foldl_cons, List.foldl_cons, ih, ih (0 ^^^ x), Nat.zero_xor, Nat.xor_assoc]

theorem select_xor (a b : Bool) (g : ℕ) :
    (if (a ^^ b) = true then g else 0) =
      (if a = true then g else 0) ^^^ (if b = true then g else 0) := by
  cases a <;> cases b <;> simp

theorem taps_xor (a b : ℕ) : taps (a ^^^ b) = taps a ^^^ taps b := by
  simp only [taps, generators, List.zipIdx_cons, List.zipIdx_nil, List.map_cons, List.map_nil,
    List.foldl_cons, List.foldl_nil, Nat.zero_xor, Nat.testBit_xor, select_xor]
  ac_rfl

theorem shift_linear : Register.Linear shift := by
  intro a b
  rw [shift, shift, shift, Nat.and_xor_distrib_right, Nat.shiftLeft_xor_distrib,
    Nat.shiftRight_xor_distrib, taps_xor]
  ac_rfl

theorem taps_lt {top : ℕ} (h : top < 32) : taps top < 2 ^ 30 := by
  have table : ∀ i : Fin 32, taps i < 2 ^ 30 := by decide
  exact table ⟨top, h⟩

/-- The constants have independent lowest symbols. -/
theorem taps_mod_eq_zero {top : ℕ} (h : top < 32) (zero : taps top % 32 = 0) : top = 0 := by
  have table : ∀ i : Fin 32, taps i % 32 = 0 → i = 0 := by decide
  exact congrArg Fin.val (table ⟨top, h⟩ zero)

theorem low_eq_mod (chk : ℕ) : chk &&& 0x1ffffff = chk % 2 ^ 25 :=
  Nat.and_two_pow_sub_one_eq_mod chk 25

theorem shiftRight_lt {chk : ℕ} (h : chk < 2 ^ 30) : chk >>> 25 < 32 := by
  rw [Nat.shiftRight_eq_div_pow]
  omega

theorem shift_regular : Register.Regular shift (2 ^ 30) where
  lt chk h := by
    refine Nat.xor_lt_two_pow ?_ (taps_lt (shiftRight_lt h))
    rw [low_eq_mod, Nat.shiftLeft_eq]
    omega
  eq_zero chk h zero := by
    have last : shift chk % 2 ^ 5 = taps (chk >>> 25) % 2 ^ 5 := by
      rw [shift, Nat.xor_mod_two_pow, Nat.shiftLeft_eq, Nat.mul_mod_left, Nat.zero_xor]
    have top : chk >>> 25 = 0 := by
      refine taps_mod_eq_zero (shiftRight_lt h) ?_
      rw [zero] at last
      exact last.symm
    rw [shift, top, show taps 0 = 0 by decide, Nat.xor_zero, low_eq_mod, Nat.shiftLeft_eq] at zero
    rw [Nat.shiftRight_eq_div_pow] at top
    omega

theorem shift_of_lt {chk : ℕ} (h : chk < 2 ^ 25) : shift chk = chk <<< 5 := by
  have top : chk >>> 25 = 0 := by
    rw [Nat.shiftRight_eq_div_pow]
    omega
  rw [shift, top, show taps 0 = 0 by decide, Nat.xor_zero, low_eq_mod, Nat.mod_eq_of_lt h]

theorem run_lt {s : ℕ} {values : List ℕ} (small : s < 2 ^ 30) (words : ∀ v ∈ values, v < 32) :
    Register.run shift s values < 2 ^ 30 := by
  induction values generalizing s with
  | nil => exact small
  | cons v values ih =>
      obtain ⟨first, rest⟩ := List.forall_mem_cons.mp words
      refine ih (Nat.xor_lt_two_pow (shift_regular.lt s small) ?_) rest
      omega

/-- A register is built from its symbols. -/
theorem shiftLeft_xor_low (n : ℕ) : (n >>> 5) <<< 5 ^^^ (n &&& 31) = n := by
  apply Nat.eq_of_testBit_eq
  intro i
  rw [show 31 = 2 ^ 5 - 1 from rfl, Nat.and_two_pow_sub_one_eq_mod, Nat.testBit_xor,
    Nat.testBit_shiftLeft, Nat.testBit_shiftRight, Nat.testBit_mod_two_pow]
  by_cases high : 5 ≤ i
  · simp [high, Nat.not_lt.mpr high, Nat.add_sub_cancel' high]
  · simp [high, Nat.lt_of_not_le high]

theorem run_symbolsOf {chk : ℕ} (h : chk < 2 ^ 30) :
    Register.run shift 0 (symbolsOf chk) = chk := by
  have step (k : ℕ) :
      shift (chk >>> (5 * k + 5)) ^^^ (chk >>> (5 * k) &&& 31) = chk >>> (5 * k) := by
    have low : chk >>> (5 * k + 5) < 2 ^ 25 := by
      rw [Nat.shiftRight_add, Nat.shiftRight_eq_div_pow, Nat.div_lt_iff_lt_mul (by decide)]
      exact Nat.lt_of_le_of_lt (Nat.shiftRight_le ..) h
    rw [shift_of_lt low, Nat.shiftRight_add, shiftLeft_xor_low]
  have first : shift 0 ^^^ (chk >>> 25 &&& 31) = chk >>> 25 := by
    rw [shift_linear.zero, Nat.zero_xor, show 31 = 2 ^ 5 - 1 from rfl,
      Nat.and_two_pow_sub_one_eq_mod, Nat.mod_eq_of_lt (shiftRight_lt h)]
  simp only [symbolsOf, List.range, List.range.loop, List.map_cons, List.map_nil,
    Register.run_cons, Register.run_nil]
  rw [first, step 4, step 3, step 2, step 1, step 0]
  rfl

theorem symbolsOf_lt (chk : ℕ) : ∀ v ∈ symbolsOf chk, v < 32 := by
  intro v mem
  obtain ⟨p, _, rfl⟩ := List.mem_map.mp mem
  exact Nat.and_lt_two_pow _ (n := 5) (by decide)

theorem symbolsOf_injOn {a b : ℕ} (ha : a < 2 ^ 30) (hb : b < 2 ^ 30)
    (h : symbolsOf a = symbolsOf b) : a = b := by
  rw [← run_symbolsOf ha, h, run_symbolsOf hb]

theorem expand_lt {hrp : List Char} (ascii : ∀ c ∈ hrp, c.toNat < 128) :
    ∀ v ∈ expand hrp, v < 32 := by
  refine List.forall_mem_append.mpr ⟨List.forall_mem_map.mpr fun c mem => ?_,
    List.forall_mem_cons.mpr ⟨by decide, List.forall_mem_map.mpr fun c mem => ?_⟩⟩
  · have bound := ascii c mem
    rw [Nat.shiftRight_eq_div_pow]
    omega
  · exact Nat.and_lt_two_pow _ (n := 5) (by decide)

theorem polymod_append (xs ys : List ℕ) :
    polymod (xs ++ ys) = Register.run shift (polymod xs) ys :=
  Register.run_append 1 xs ys

theorem polymod_lt {values : List ℕ} (words : ∀ v ∈ values, v < 32) : polymod values < 2 ^ 30 :=
  run_lt (by decide) words

/-- Six zeros leave the place of the checksum open, and the checksum fills it. -/
theorem polymod_checksum {hrp : List Char} {data : List ℕ}
    (words : ∀ v ∈ expand hrp ++ data, v < 32) :
    polymod (expand hrp ++ data ++ checksum hrp data) = 1 := by
  have zeros : ∀ v ∈ List.replicate 6 0, v < 32 := by decide
  have small : polymod (expand hrp ++ data ++ List.replicate 6 0) ^^^ 1 < 2 ^ 30 := by
    refine Nat.xor_lt_two_pow (polymod_lt ?_) (by decide)
    exact List.forall_mem_append.mpr ⟨words, zeros⟩
  have open_place : polymod (expand hrp ++ data ++ List.replicate 6 0) =
      shift^[6] (polymod (expand hrp ++ data)) := by
    rw [polymod_append, Register.run_replicate_zero]
  rw [polymod_append, Register.run_eq shift_linear, checksum, run_symbolsOf small, open_place]
  exact Nat.xor_xor_cancel_left ..

/-- The checksum sees every single different word. -/
theorem polymod_ne {u v : ℕ} (hu : u < 32) (hv : v < 32) (differ : u ≠ v)
    (front rest : List ℕ) : polymod (front ++ u :: rest) ≠ polymod (front ++ v :: rest) := by
  refine Register.run_ne_run shift_linear shift_regular ?_ differ 1 front rest
  exact Nat.lt_of_lt_of_le (Nat.xor_lt_two_pow (n := 5) hu hv) (by decide)

/-! ## Texts -/

/-- The character of a word. -/
def symbol (word : ℕ) : Char := charset.getD word 'q'

def word? (c : Char) : Option ℕ := charset.findIdx? (· == c)

def words? (data : List Char) : Option (List ℕ) := data.mapM word?

/-- Before and after the last separator. -/
def split (text : List Char) : Option (List Char × List Char) :=
  match text.reverse.dropWhile (· != '1') with
  | [] => none
  | _ :: hrp => some (hrp.reverse, (text.reverse.takeWhile (· != '1')).reverse)

/-- The bytes of the words. What is left of them is short, and zero. -/
def regroup (words : List ℕ) : Option (List UInt8) :=
  let (gs, left) := Bits.groups 8 (words.flatMap (Bits.bits 5))
  if left.length < 5 ∧ ∀ b ∈ left, b = false then
    some (gs.map fun g => .ofNat (Bits.value g))
  else none

/-- The text has a checksum, and it is right. -/
def Verifies (text : List Char) : Prop :=
  ∃ hrp data words, split text = some (hrp, data) ∧ words? data = some words ∧
    polymod (expand hrp ++ words) = 1

/-- The checksum of what follows this readable part is right. -/
def VerifiesFor (hrp text : List Char) : Prop :=
  ∃ data words, text = hrp ++ '1' :: data ∧ words? data = some words ∧
    polymod (expand hrp ++ words) = 1

def parse (text : List Char) : Option (List Char × List UInt8) := do
  let (hrp, data) ← split text
  let words ← words? data
  if hrp = [] ∨ words.length < 6 ∨ polymod (expand hrp ++ words) ≠ 1 then none
  else
    let bytes ← regroup (words.take (words.length - 6))
    return (hrp, bytes)

/-- At most 90 characters, all of them visible, in one case. -/
def Admissible (text : List Char) : Prop :=
  text.length ≤ 90 ∧ (∀ c ∈ text, 33 ≤ c.toNat ∧ c.toNat ≤ 126) ∧
    ¬ ((∃ c ∈ text, c.isUpper = true) ∧ ∃ c ∈ text, c.isLower = true)

instance (text : List Char) : Decidable (Admissible text) :=
  haveI : Decidable (∀ c ∈ text, 33 ≤ c.toNat ∧ c.toNat ≤ 126) := List.decidableBAll _ _
  haveI : Decidable (∃ c ∈ text, c.isUpper = true) := List.decidableBEx _ _
  haveI : Decidable (∃ c ∈ text, c.isLower = true) := List.decidableBEx _ _
  inferInstanceAs (Decidable (_ ∧ _ ∧ ¬ (_ ∧ _)))

def decode (text : List Char) : Option (List Char × List UInt8) :=
  if Admissible text then parse (text.map Char.toLower) else none

theorem word?_symbol {word : ℕ} (h : word < 32) : word? (symbol word) = some word := by
  have table : ∀ i : Fin 32, word? (symbol i) = some i.val := by decide
  exact table ⟨word, h⟩

theorem word?_eq_some {c : Char} {word : ℕ} (h : word? c = some word) :
    word < 32 ∧ symbol word = c := by
  obtain ⟨lt, same, _⟩ := List.findIdx?_eq_some_iff_getElem.mp h
  refine ⟨lt, ?_⟩
  rw [symbol, List.getD_eq_getElem?_getD, List.getElem?_eq_getElem lt, Option.getD_some]
  exact beq_iff_eq.mp same

theorem symbol_ne_separator {word : ℕ} (h : word < 32) : symbol word ≠ '1' := by
  have table : ∀ i : Fin 32, symbol i ≠ '1' := by decide
  exact table ⟨word, h⟩

theorem separator_notMem {words : List ℕ} (h : ∀ v ∈ words, v < 32) :
    '1' ∉ words.map symbol := by
  intro mem
  obtain ⟨v, member, same⟩ := List.mem_map.mp mem
  exact symbol_ne_separator (h v member) same

theorem symbol_visible {word : ℕ} (h : word < 32) :
    33 ≤ (symbol word).toNat ∧ (symbol word).toNat ≤ 126 ∧ (symbol word).isUpper = false := by
  have table : ∀ i : Fin 32,
      33 ≤ (symbol i).toNat ∧ (symbol i).toNat ≤ 126 ∧ (symbol i).isUpper = false := by decide
  exact table ⟨word, h⟩

theorem words?_map_symbol {words : List ℕ} (h : ∀ v ∈ words, v < 32) :
    words? (words.map symbol) = some words := by
  induction words with
  | nil => rfl
  | cons v words ih =>
      obtain ⟨first, rest⟩ := List.forall_mem_cons.mp h
      rw [words?] at ih ⊢
      rw [List.map_cons, List.mapM_cons, word?_symbol first, ih rest]
      rfl

theorem split_append (hrp : List Char) {data : List Char} (h : '1' ∉ data) :
    split (hrp ++ '1' :: data) = some (hrp, data) := by
  have before : ∀ c ∈ data.reverse, (c != '1') = true := by
    intro c mem
    rw [bne_iff_ne]
    rintro rfl
    exact h (List.mem_reverse.mp mem)
  have reversed : (hrp ++ '1' :: data).reverse = data.reverse ++ '1' :: hrp.reverse := by simp
  rw [split, reversed, List.dropWhile_append_of_pos before, List.takeWhile_append_of_pos before]
  simp

theorem regroup_eq {words : List ℕ} {bytes : List UInt8} {left : List Bool}
    (short : left.length < 8)
    (h : words.flatMap (Bits.bits 5) = bytes.flatMap (fun b => Bits.bits 8 b.toNat) ++ left) :
    regroup words = if left.length < 5 ∧ ∀ b ∈ left, b = false then some bytes else none := by
  have full : ∀ g ∈ bytes.map fun b => Bits.bits 8 b.toNat, g.length = 8 :=
    List.forall_mem_map.mpr fun b _ => Bits.length_bits 8 b.toNat
  have grouped := Bits.groups_flatten full short
  rw [← List.flatMap_def, ← h] at grouped
  have byte (b : UInt8) : UInt8.ofNat (Bits.value (Bits.bits 8 b.toNat)) = b := by
    rw [Bits.value_bits, Nat.mod_eq_of_lt b.toNat_lt, UInt8.ofNat_toNat]
  simp only [regroup, grouped, List.map_map, Function.comp_def, byte, List.map_id']

theorem regroup_eq_some {words : List ℕ} {bytes : List UInt8} {left : List Bool}
    (short : left.length < 5) (zero : ∀ b ∈ left, b = false)
    (h : words.flatMap (Bits.bits 5) = bytes.flatMap (fun b => Bits.bits 8 b.toNat) ++ left) :
    regroup words = some bytes := by
  rw [regroup_eq (by omega) h, if_pos ⟨short, zero⟩]

/-- The words of a text with the checksum that belongs to it. -/
theorem parse_eq_some {hrp : List Char} {data : List ℕ} {bytes : List UInt8} (nonempty : hrp ≠ [])
    (ascii : ∀ v ∈ expand hrp, v < 32) (words : ∀ v ∈ data, v < 32)
    (grouped : regroup data = some bytes) :
    parse (hrp ++ '1' :: (data ++ checksum hrp data).map symbol) = some (hrp, bytes) := by
  have all : ∀ v ∈ data ++ checksum hrp data, v < 32 :=
    List.forall_mem_append.mpr ⟨words, symbolsOf_lt _⟩
  have apart := separator_notMem all
  have right := polymod_checksum (List.forall_mem_append.mpr ⟨ascii, words⟩)
  rw [List.append_assoc] at right
  have front :
      (data ++ checksum hrp data).take ((data ++ checksum hrp data).length - 6) = data := by
    rw [List.length_append, length_checksum, Nat.add_sub_cancel, List.take_left]
  simp only [parse, split_append hrp apart, words?_map_symbol all, Option.bind_eq_bind,
    Option.bind_some, front, grouped, right]
  rw [if_neg]
  · rfl
  · rw [List.length_append, length_checksum]
    simp [nonempty]

theorem toLower_eq_self {c : Char} (h : c.isUpper = false) : c.toLower = c :=
  dif_neg (of_decide_eq_false h)

/-- A short text of visible characters, none of them upper case, is read as it is. -/
theorem decode_eq_parse {text : List Char} (short : text.length ≤ 90)
    (visible : ∀ c ∈ text, 33 ≤ c.toNat ∧ c.toNat ≤ 126 ∧ c.isUpper = false) :
    decode text = parse text := by
  have admissible : Admissible text := by
    refine ⟨short, fun c mem => ⟨(visible c mem).1, (visible c mem).2.1⟩, ?_⟩
    rintro ⟨⟨c, mem, upper⟩, _⟩
    rw [(visible c mem).2.2] at upper
    cases upper
  have lower : text.map Char.toLower = text := by
    rw [List.map_congr_left fun c mem => toLower_eq_self (visible c mem).2.2, List.map_id']
  rw [decode, if_pos admissible, lower]

/-! ## One different character -/

theorem words?_append (xs ys : List Char) : words? (xs ++ ys) =
    (words? xs).bind fun front => (words? ys).bind fun rest => some (front ++ rest) := by
  induction xs with
  | nil => simp [words?]
  | cons c xs ih =>
      rw [words?] at ih
      simp only [words?, List.cons_append, List.mapM_cons, ih, Option.bind_eq_bind,
        Option.pure_def]
      cases word? c <;> cases List.mapM word? xs <;> cases List.mapM word? ys <;> rfl

/-- A different symbol of the data is a different word, or none. -/
theorem words?_set {front rest words : List ℕ} {u : ℕ} {c : Char}
    (small : ∀ v ∈ front ++ u :: rest, v < 32) (differ : symbol u ≠ c)
    (read : words? (front.map symbol ++ c :: rest.map symbol) = some words) :
    ∃ v < 32, u ≠ v ∧ words = front ++ v :: rest := by
  obtain ⟨before, _, after⟩ := List.forall_mem_append.mp small |>.imp_right
    List.forall_mem_cons.mp
  rw [words?_append, words?_map_symbol before, words?, List.mapM_cons, ← words?,
    words?_map_symbol after] at read
  cases found : word? c with
  | none => simp [found] at read
  | some v =>
      obtain ⟨lt, back⟩ := word?_eq_some found
      refine ⟨v, lt, ?_, ?_⟩
      · rintro rfl
        exact differ back
      · simpa [found] using read.symm

theorem checksum_ne {hrp : List Char} {front rest : List ℕ} {u v : ℕ}
    (hu : ∀ w ∈ expand hrp ++ (front ++ u :: rest), w < 32)
    (hv : ∀ w ∈ expand hrp ++ (front ++ v :: rest), w < 32) (differ : u ≠ v) :
    checksum hrp (front ++ u :: rest) ≠ checksum hrp (front ++ v :: rest) := by
  have zeros : ∀ w ∈ List.replicate 6 0, w < 32 := by decide
  have bound {words : List ℕ} (small : ∀ w ∈ words, w < 32) :
      polymod (words ++ List.replicate 6 0) ^^^ 1 < 2 ^ 30 :=
    Nat.xor_lt_two_pow (polymod_lt (List.forall_mem_append.mpr ⟨small, zeros⟩)) (by decide)
  intro same
  have registers := symbolsOf_injOn (bound hu) (bound hv) same
  rw [Nat.xor_left_inj] at registers
  refine polymod_ne (hu u (by simp)) (hv v (by simp)) differ (expand hrp ++ front)
    (rest ++ List.replicate 6 0) ?_
  simpa only [List.append_assoc, List.cons_append] using registers

theorem not_verifiesFor {hrp : List Char} {front rest : List ℕ} {u : ℕ} {c : Char}
    (small : ∀ v ∈ front ++ u :: rest, v < 32) (differ : symbol u ≠ c)
    (right : polymod (expand hrp ++ (front ++ u :: rest)) = 1) :
    ¬ VerifiesFor hrp (hrp ++ '1' :: (front.map symbol ++ c :: rest.map symbol)) := by
  rintro ⟨data, words, text, read, verifies⟩
  obtain rfl := (List.cons.inj (List.append_cancel_left text)).2
  obtain ⟨v, lt, apart, rfl⟩ := words?_set small differ read
  have mid : u < 32 := small u (List.mem_append_right _ List.mem_cons_self)
  refine polymod_ne mid lt apart (expand hrp ++ front) rest ?_
  rw [List.append_assoc, List.append_assoc, right, verifies]

/-- Where the separator stays the last one, it is the same check. -/
theorem verifies_iff (hrp : List Char) {data : List Char} (h : '1' ∉ data) :
    Verifies (hrp ++ '1' :: data) ↔ VerifiesFor hrp (hrp ++ '1' :: data) := by
  constructor
  · rintro ⟨_, _, words, found, read, right⟩
    rw [split_append hrp h, Option.some.injEq, Prod.mk.injEq] at found
    obtain ⟨rfl, rfl⟩ := found
    exact ⟨_, words, rfl, read, right⟩
  · rintro ⟨other, words, text, read, right⟩
    obtain rfl := (List.cons.inj (List.append_cancel_left text)).2
    exact ⟨hrp, _, words, split_append hrp h, read, right⟩

theorem separator_notMem_replaced {front rest : List ℕ} {c : Char} (hfront : ∀ v ∈ front, v < 32)
    (hrest : ∀ v ∈ rest, v < 32) (separator : c ≠ '1') :
    '1' ∉ front.map symbol ++ c :: rest.map symbol := by
  intro mem
  rcases List.mem_append.mp mem with mem | mem
  · exact separator_notMem hfront mem
  · rcases List.mem_cons.mp mem with same | mem
    · exact separator same.symm
    · exact separator_notMem hrest mem

/-- A text with one other character behind its separator is none that the check accepts. -/
theorem not_verifies_set {hrp : List Char} {words : List ℕ} {i : ℕ} {c : Char}
    (small : ∀ v ∈ words, v < 32) (right : polymod (expand hrp ++ words) = 1)
    (after : hrp.length < i) (inside : i < (hrp ++ '1' :: words.map symbol).length)
    (differ : (hrp ++ '1' :: words.map symbol)[i]? ≠ some c) :
    ¬ VerifiesFor hrp ((hrp ++ '1' :: words.map symbol).set i c) ∧
      (c ≠ '1' → ¬ Verifies ((hrp ++ '1' :: words.map symbol).set i c)) := by
  obtain ⟨j, rfl⟩ : ∃ j, i = hrp.length + (j + 1) := ⟨i - hrp.length - 1, by omega⟩
  have place : j < words.length := by simpa using inside
  obtain ⟨front, u, rest, rfl, rfl⟩ :
      ∃ front u rest, words = front ++ u :: rest ∧ front.length = j :=
    ⟨words.take j, words[j], words.drop (j + 1), by simp, by simp [place.le]⟩
  have apart : symbol u ≠ c := by simpa using differ
  have changed : (hrp ++ '1' :: (front ++ u :: rest).map symbol).set
      (hrp.length + (front.length + 1)) c =
      hrp ++ '1' :: (front.map symbol ++ c :: rest.map symbol) := by
    simp
  have refused := not_verifiesFor small apart right
  rw [changed]
  refine ⟨refused, fun separator => ?_⟩
  obtain ⟨before, _, behind⟩ := List.forall_mem_append.mp small |>.imp_right
    List.forall_mem_cons.mp
  rwa [verifies_iff _ (separator_notMem_replaced before behind separator)]

end Bech32
