import Mathlib.Logic.Equiv.Defs
import Mathlib.Data.List.Basic
import Mathlib.Data.UInt

/-! # Codecs

A codec writes a value, or fails, and reads one from the front of the input. Codecs in
sequence make the codec of a record. -/

structure Codec (α : Type) where
  write : α → Option (List UInt8)
  read : List UInt8 → Option (α × List UInt8)

namespace Codec

variable {α β : Type}

/-- What has been written is read back, whatever follows it. -/
def RoundTrips (c : Codec α) : Prop :=
  ∀ value bytes rest, c.write value = some bytes → c.read (bytes ++ rest) = some (value, rest)

/-- One codec after the other. -/
def seq (c : Codec α) (d : Codec β) : Codec (α × β) where
  write value := do
    let first ← c.write value.1
    let second ← d.write value.2
    return first ++ second
  read bytes := do
    let (a, rest) ← c.read bytes
    let (b, rest) ← d.read rest
    return ((a, b), rest)

/-- The codec of an equivalent type. -/
def map (c : Codec α) (e : α ≃ β) : Codec β where
  write value := c.write (e.symm value)
  read bytes := (c.read bytes).map fun r => (e r.1, r.2)

/-- The codec of a record without fields. -/
def unit : Codec Unit where
  write _ := some []
  read bytes := some ((), bytes)

/-- The bytes themselves, without a length. -/
def fixed (size : ℕ) : Codec (Vector UInt8 size) where
  write value := some value.toList
  read bytes :=
    if h : size ≤ bytes.length then
      some (⟨(bytes.take size).toArray, by simp [h]⟩, bytes.drop size)
    else none

/-- Values that are written as values of another type, or not at all. -/
def via (c : Codec α) (stored : β → Option α) (loaded : α → β) : Codec β where
  write value := (stored value).bind c.write
  read bytes := (c.read bytes).map fun r => (loaded r.1, r.2)

theorem RoundTrips.seq {c : Codec α} {d : Codec β} (hc : c.RoundTrips) (hd : d.RoundTrips) :
    (c.seq d).RoundTrips := by
  rintro ⟨a, b⟩ bytes rest h
  simp only [Codec.seq, Option.bind_eq_bind, Option.bind_eq_some_iff, Option.pure_def,
    Option.some.injEq] at h
  obtain ⟨first, hfirst, second, hsecond, rfl⟩ := h
  simp [Codec.seq, hc a first _ hfirst, hd b second rest hsecond]

theorem RoundTrips.map {c : Codec α} (hc : c.RoundTrips) (e : α ≃ β) : (c.map e).RoundTrips := by
  intro value bytes rest h
  simp [Codec.map, hc _ bytes rest h]

theorem unit_roundTrips : unit.RoundTrips := by
  intro value bytes rest h
  obtain rfl : [] = bytes := Option.some.inj h
  rfl

theorem fixed_roundTrips (size : ℕ) : (fixed size).RoundTrips := by
  intro value bytes rest h
  obtain rfl : value.toList = bytes := Option.some.inj h
  have length : value.toList.length = size := Vector.length_toList
  have enough : size ≤ (value.toList ++ rest).length := by
    rw [List.length_append]
    omega
  have front : (value.toList ++ rest).take size = value.toList := by
    rw [List.take_append_of_le_length (by omega), List.take_of_length_le (by omega)]
  have back : (value.toList ++ rest).drop size = rest := by
    rw [List.drop_append_of_le_length (by omega), List.drop_of_length_le (by omega),
      List.nil_append]
  simp only [fixed, dif_pos enough, front, back]
  rfl

theorem RoundTrips.via {c : Codec α} (hc : c.RoundTrips) {stored : β → Option α} {loaded : α → β}
    (h : ∀ value raw, stored value = some raw → loaded raw = value) :
    (c.via stored loaded).RoundTrips := by
  intro value bytes rest written
  obtain ⟨raw, hraw, hbytes⟩ := Option.bind_eq_some_iff.mp written
  simp [Codec.via, hc raw bytes rest hbytes, h value raw hraw]

/-- A record is at least as long as its first field. -/
theorem length_le_of_seq_write {c : Codec α} {d : Codec β} {value : α × β}
    {bytes : List UInt8} (h : (c.seq d).write value = some bytes) :
    ∃ first, c.write value.1 = some first ∧ first.length ≤ bytes.length := by
  simp only [Codec.seq, Option.bind_eq_bind, Option.bind_eq_some_iff, Option.pure_def,
    Option.some.injEq] at h
  obtain ⟨first, hfirst, second, _, rfl⟩ := h
  exact ⟨first, hfirst, by simp⟩

/-! ## Unique encodings -/

/-- What is read is what would be written, and the rest. -/
def Unique (c : Codec α) : Prop :=
  ∀ bytes value rest, c.read bytes = some (value, rest) →
    ∃ front, c.write value = some front ∧ bytes = front ++ rest

theorem Unique.seq {c : Codec α} {d : Codec β} (hc : c.Unique) (hd : d.Unique) :
    (c.seq d).Unique := by
  rintro bytes ⟨a, b⟩ rest h
  simp only [Codec.seq, Option.bind_eq_bind, Option.bind_eq_some_iff, Option.pure_def,
    Option.some.injEq, Prod.mk.injEq] at h
  obtain ⟨⟨a', middle⟩, readA, ⟨b', last⟩, readB, ⟨rfl, rfl⟩, rfl⟩ := h
  obtain ⟨first, writtenA, rfl⟩ := hc bytes a' middle readA
  obtain ⟨second, writtenB, rfl⟩ := hd middle b' last readB
  exact ⟨first ++ second, by simp [Codec.seq, writtenA, writtenB], by simp⟩

theorem Unique.map {c : Codec α} (hc : c.Unique) (e : α ≃ β) : (c.map e).Unique := by
  intro bytes value rest h
  obtain ⟨⟨a, _⟩, read, same⟩ := Option.map_eq_some_iff.mp h
  obtain ⟨rfl, rfl⟩ := Prod.mk.inj same
  obtain ⟨front, written, rfl⟩ := hc bytes a _ read
  exact ⟨front, by simp [Codec.map, written], rfl⟩

/-- Refuses whatever would be written differently. -/
def strict (c : Codec α) : Codec α where
  write := c.write
  read bytes := (c.read bytes).filter fun r =>
    decide ((c.write r.1).map (· ++ r.2) = some bytes)

theorem strict_unique (c : Codec α) : c.strict.Unique := by
  intro bytes value rest h
  obtain ⟨_, same⟩ := Option.filter_eq_some_iff.mp h
  obtain ⟨front, written, joined⟩ := Option.map_eq_some_iff.mp (of_decide_eq_true same)
  exact ⟨front, written, joined.symm⟩

theorem RoundTrips.strict {c : Codec α} (hc : c.RoundTrips) : c.strict.RoundTrips := by
  intro value bytes rest h
  have written : c.write value = some bytes := h
  simp [Codec.strict, hc value bytes rest written, written]

/-! ## Sizes -/

/-- Every value is written, in as many bytes as its size says. -/
def Sized (c : Codec α) (size : α → ℕ) : Prop :=
  ∀ value, ∃ bytes, c.write value = some bytes ∧ bytes.length = size value

theorem Sized.seq {c : Codec α} {d : Codec β} {sizeC : α → ℕ} {sizeD : β → ℕ}
    (hc : c.Sized sizeC) (hd : d.Sized sizeD) :
    (c.seq d).Sized fun value => sizeC value.1 + sizeD value.2 := by
  rintro ⟨a, b⟩
  obtain ⟨first, hfirst, firstLength⟩ := hc a
  obtain ⟨second, hsecond, secondLength⟩ := hd b
  refine ⟨first ++ second, ?_, ?_⟩
  · simp [Codec.seq, hfirst, hsecond]
  · rw [List.length_append, firstLength, secondLength]

theorem Sized.map {c : Codec α} {size : α → ℕ} (hc : c.Sized size) (e : α ≃ β) :
    (c.map e).Sized fun value => size (e.symm value) :=
  fun value => hc (e.symm value)

theorem Sized.via {c : Codec α} {size : α → ℕ} (hc : c.Sized size) {stored : β → α}
    (loaded : α → β) :
    (c.via (fun value => some (stored value)) loaded).Sized fun value => size (stored value) :=
  fun value => hc (stored value)

theorem Sized.strict {c : Codec α} {size : α → ℕ} (hc : c.Sized size) : c.strict.Sized size :=
  hc

theorem unit_sized : unit.Sized fun _ => 0 :=
  fun _ => ⟨[], rfl, rfl⟩

theorem fixed_sized (size : ℕ) : (fixed size).Sized fun _ => size :=
  fun value => ⟨value.toList, rfl, Vector.length_toList⟩

/-! ## Numbers of any length -/

/-- Seven bits a byte, the lowest first, with the high bit on every byte but the last. -/
def writeVarint (n : ℕ) : List UInt8 :=
  if n < 128 then [UInt8.ofNat n]
  else UInt8.ofNat (128 + n % 128) :: writeVarint (n / 128)

def readVarint : List UInt8 → Option (ℕ × List UInt8)
  | [] => none
  | byte :: rest =>
    if byte.toNat < 128 then some (byte.toNat, rest)
    else (readVarint rest).map fun r => (byte.toNat - 128 + 128 * r.1, r.2)

def varint : Codec ℕ where
  write n := some (writeVarint n)
  read := readVarint

theorem length_writeVarint_of_lt {n : ℕ} (h : n < 128) : (writeVarint n).length = 1 := by
  rw [writeVarint, if_pos h, List.length_singleton]

theorem readVarint_writeVarint (n : ℕ) (rest : List UInt8) :
    readVarint (writeVarint n ++ rest) = some (n, rest) := by
  induction n using writeVarint.induct with
  | case1 n small =>
      have byte : (UInt8.ofNat n).toNat = n := by
        rw [UInt8.toNat_ofNat']
        omega
      rw [writeVarint, if_pos small, List.singleton_append, readVarint, byte, if_pos small]
  | case2 n large ih =>
      have byte : (UInt8.ofNat (128 + n % 128)).toNat = 128 + n % 128 := by
        rw [UInt8.toNat_ofNat']
        omega
      have digits : 128 + n % 128 - 128 + 128 * (n / 128) = n := by omega
      rw [writeVarint, if_neg large, List.cons_append, readVarint, byte, if_neg (by omega), ih,
        Option.map_some, digits]

theorem varint_roundTrips : varint.RoundTrips := by
  intro n bytes rest h
  obtain rfl : writeVarint n = bytes := Option.some.inj h
  exact readVarint_writeVarint n rest

theorem varint_sized : varint.Sized fun n => (writeVarint n).length :=
  fun n => ⟨writeVarint n, rfl, rfl⟩

end Codec
