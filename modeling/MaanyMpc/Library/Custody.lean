import Mathlib.Data.Nat.Notation
import Mathlib.Logic.Function.Basic

/-! # Objects and their holders

An object lives at the address that it was given until it is dropped. No address is given
twice, so a reference to an object that is gone never becomes one to another object. Holders
are objects themselves: each holds at most one object of the kind that fits it. -/

structure Objects (α : Type*) where
  at? : ℕ → Option α
  next : ℕ
  fresh : ∀ p, next ≤ p → at? p = none

namespace Objects

variable {α : Type*}

def empty : Objects α := ⟨fun _ => none, 0, fun _ _ => rfl⟩

/-- The new object is at the address `m.next`. -/
def add (m : Objects α) (x : α) : Objects α where
  at? := Function.update m.at? m.next (some x)
  next := m.next + 1
  fresh p h := (Function.update_of_ne (by omega) ..).trans (m.fresh p (by omega))

def modify (m : Objects α) (p : ℕ) (f : α → α) : Objects α where
  at? := Function.update m.at? p ((m.at? p).map f)
  next := m.next
  fresh q h := by
    by_cases same : q = p
    · rw [same, Function.update_self, m.fresh p (same ▸ h), Option.map_none]
    · rw [Function.update_of_ne same, m.fresh q h]

def drop (m : Objects α) (p : ℕ) : Objects α where
  at? := Function.update m.at? p none
  next := m.next
  fresh q h := by
    by_cases same : q = p
    · rw [same, Function.update_self]
    · rw [Function.update_of_ne same, m.fresh q h]

@[simp] theorem modify_next (m : Objects α) (p : ℕ) (f : α → α) : (m.modify p f).next = m.next :=
  rfl

@[simp] theorem add_self (m : Objects α) (x : α) : (m.add x).at? m.next = some x :=
  Function.update_self ..

@[simp] theorem modify_self (m : Objects α) (p : ℕ) (f : α → α) :
    (m.modify p f).at? p = (m.at? p).map f := Function.update_self ..

@[simp] theorem drop_self (m : Objects α) (p : ℕ) : (m.drop p).at? p = none :=
  Function.update_self ..

@[simp] theorem add_of_ne (m : Objects α) {p : ℕ} (x : α) (h : p ≠ m.next) :
    (m.add x).at? p = m.at? p := Function.update_of_ne h ..

@[simp] theorem modify_of_ne (m : Objects α) {p q : ℕ} (f : α → α) (h : q ≠ p) :
    (m.modify p f).at? q = m.at? q := Function.update_of_ne h ..

@[simp] theorem drop_of_ne (m : Objects α) {p q : ℕ} (h : q ≠ p) : (m.drop p).at? q = m.at? q :=
  Function.update_of_ne h ..

@[simp] theorem add_next (m : Objects α) (x : α) : (m.add x).next = m.next + 1 := rfl

@[simp] theorem drop_next (m : Objects α) (p : ℕ) : (m.drop p).next = m.next := rfl

theorem ne_next {m : Objects α} {p : ℕ} {x : α} (h : m.at? p = some x) : p ≠ m.next := by
  rintro rfl
  rw [m.fresh m.next (Nat.le_refl _)] at h
  cases h

/-- What is there stays there. -/
theorem add_of_some {m : Objects α} {p : ℕ} {x : α} (y : α) (h : m.at? p = some x) :
    (m.add y).at? p = some x := (m.add_of_ne y (ne_next h)).trans h

/-- An object after an addition is the new one or was there before. -/
theorem of_add {m : Objects α} {p : ℕ} {x y : α} (h : (m.add y).at? p = some x) :
    p = m.next ∧ x = y ∨ p ≠ m.next ∧ m.at? p = some x := by
  by_cases same : p = m.next
  · subst same
    rw [add_self, Option.some.injEq] at h
    exact .inl ⟨rfl, h.symm⟩
  · exact .inr ⟨same, (m.add_of_ne y same).symm.trans h⟩

theorem of_drop {m : Objects α} {p q : ℕ} {x : α} (h : (m.drop p).at? q = some x) :
    q ≠ p ∧ m.at? q = some x := by
  have other : q ≠ p := by
    rintro rfl
    rw [drop_self] at h
    cases h
  exact ⟨other, (m.drop_of_ne other).symm.trans h⟩

theorem lt_next {m : Objects α} {p : ℕ} {x : α} (h : m.at? p = some x) : p < m.next := by
  by_contra late
  rw [m.fresh p (Nat.le_of_not_lt late)] at h
  cases h

/-- An addition and the drop of something else come in either order. -/
theorem drop_add_comm (m : Objects α) (x : α) {p : ℕ} (h : p ≠ m.next) :
    ((m.drop p).add x).at? = ((m.add x).drop p).at? := Function.update_comm h ..

theorem drop_modify (m : Objects α) (p : ℕ) (f : α → α) :
    ((m.modify p f).drop p).at? = (m.drop p).at? := Function.update_idem ..

theorem of_modify {m : Objects α} {p q : ℕ} {f : α → α} {x : α}
    (h : (m.modify p f).at? q = some x) :
    ∃ y, m.at? q = some y ∧ (q = p ∧ x = f y ∨ q ≠ p ∧ x = y) := by
  by_cases same : q = p
  · subst same
    rw [modify_self, Option.map_eq_some_iff] at h
    obtain ⟨y, old, rfl⟩ := h
    exact ⟨y, old, .inl ⟨rfl, rfl⟩⟩
  · rw [m.modify_of_ne f same] at h
    exact ⟨x, h, .inr ⟨same, rfl⟩⟩

/-! ### The same objects -/

/-- The same objects, though others may have come and gone. -/
structure Same (m m' : Objects α) : Prop where
  at? : m'.at? = m.at?
  next : m.next ≤ m'.next

theorem Same.refl (m : Objects α) : Same m m := ⟨rfl, Nat.le_refl _⟩

theorem Same.trans {m m' m'' : Objects α} (h : Same m m') (h' : Same m' m'') : Same m m'' :=
  ⟨h'.at?.trans h.at?, Nat.le_trans h.next h'.next⟩

/-- What has been added is dropped again. -/
theorem drop_add (m : Objects α) (x : α) : Same m ((m.add x).drop m.next) where
  at? := by
    funext p
    by_cases same : p = m.next
    · rw [same, drop_self, m.fresh m.next (Nat.le_refl _)]
    · rw [drop_of_ne _ same, add_of_ne _ x same]
  next := Nat.le_succ _

/-! ### Objects that are gone -/

/-- There was an object, and it has been dropped. -/
structure Gone (m : Objects α) (p : ℕ) : Prop where
  none : m.at? p = none
  old : p < m.next

namespace Gone

variable {m : Objects α} {p : ℕ}

theorem of_drop {x : α} (h : m.at? p = some x) : Gone (m.drop p) p :=
  ⟨m.drop_self p, lt_next (m := m) h⟩

theorem add (h : Gone m p) (x : α) : Gone (m.add x) p :=
  ⟨(m.add_of_ne x (Nat.ne_of_lt h.old)).trans h.none, Nat.lt_succ_of_lt h.old⟩

theorem drop (h : Gone m p) (q : ℕ) : Gone (m.drop q) p := by
  refine ⟨?_, h.old⟩
  by_cases same : p = q
  · rw [same, drop_self]
  · rw [m.drop_of_ne same, h.none]

theorem modify (h : Gone m p) (q : ℕ) (f : α → α) : Gone (m.modify q f) p := by
  refine ⟨?_, h.old⟩
  by_cases same : p = q
  · rw [same, modify_self, ← same, h.none, Option.map_none]
  · rw [m.modify_of_ne f same, h.none]

theorem same {m' : Objects α} (h : Gone m p) (same : Same m m') : Gone m' p :=
  ⟨by rw [same.at?, h.none], Nat.lt_of_lt_of_le h.old same.next⟩

end Gone

end Objects

namespace Custody

structure Holder (κ : Type*) where
  kind : κ
  held : Option ℕ

structure Store (α κ : Type*) where
  objects : Objects α
  holders : Objects (Holder κ)

variable {α κ : Type*}

/-- The object at `p` is held by `w`. -/
def Store.Holds (s : Store α κ) (w p : ℕ) : Prop :=
  ∃ holder, s.holders.at? w = some holder ∧ holder.held = some p

section

variable (fits : κ → α → Prop)

/-- An object that fits some holder must be held. -/
def Needs (x : α) : Prop := ∃ kind, fits kind x

structure Sound (s : Store α κ) : Prop where
  /-- what is held is there -/
  alive : ∀ w holder p, s.holders.at? w = some holder → holder.held = some p →
    ∃ x, s.objects.at? p = some x ∧ fits holder.kind x
  apart : ∀ w w' p, s.Holds w p → s.Holds w' p → w = w'
  /-- nothing that must be held is lost -/
  kept : ∀ p x, s.objects.at? p = some x → Needs fits x → ∃ w, s.Holds w p

/-- The objects that must be held are the same ones. -/
structure Keeps (m m' : Objects α) : Prop where
  stays : ∀ p x kind, m.at? p = some x → fits kind x → ∃ x', m'.at? p = some x' ∧ fits kind x'
  old : ∀ p x', m'.at? p = some x' → Needs fits x' → ∃ x, m.at? p = some x ∧ Needs fits x

end

variable {fits : κ → α → Prop}

namespace Keeps

theorem refl (m : Objects α) : Keeps fits m m where
  stays _ x _ h fit := ⟨x, h, fit⟩
  old _ x h needs := ⟨x, h, needs⟩

theorem trans {m m' m'' : Objects α} (h : Keeps fits m m') (h' : Keeps fits m' m'') :
    Keeps fits m m'' where
  stays p x kind at_ fit := by
    obtain ⟨x', at', fit'⟩ := h.stays p x kind at_ fit
    exact h'.stays p x' kind at' fit'
  old p x'' at_ needs := by
    obtain ⟨x', at', needs'⟩ := h'.old p x'' at_ needs
    exact h.old p x' at' needs'

theorem add (m : Objects α) {x : α} (free : ¬ Needs fits x) : Keeps fits m (m.add x) where
  stays p y kind at_ fit := ⟨y, Objects.add_of_some x at_, fit⟩
  old p y at_ needs := by
    rcases Objects.of_add at_ with ⟨_, rfl⟩ | ⟨_, old⟩
    · exact absurd needs free
    · exact ⟨y, old, needs⟩

theorem drop {m : Objects α} {p : ℕ} {x : α} (there : m.at? p = some x) (free : ¬ Needs fits x) :
    Keeps fits m (m.drop p) where
  stays q y kind at_ fit := by
    refine ⟨y, (m.drop_of_ne ?_).trans at_, fit⟩
    rintro rfl
    obtain rfl := Option.some.inj (at_.symm.trans there)
    exact free ⟨kind, fit⟩
  old q y at_ needs := ⟨y, (Objects.of_drop at_).2, needs⟩

theorem modify (m : Objects α) (p : ℕ) {f : α → α}
    (same : ∀ kind x, fits kind (f x) ↔ fits kind x) : Keeps fits m (m.modify p f) where
  stays q x kind at_ fit := by
    by_cases here : q = p
    · subst here
      exact ⟨f x, by rw [Objects.modify_self, at_]; rfl, (same kind x).mpr fit⟩
    · exact ⟨x, (m.modify_of_ne f here).trans at_, fit⟩
  old q x at_ needs := by
    obtain ⟨y, old, ⟨_, rfl⟩ | ⟨_, rfl⟩⟩ := Objects.of_modify at_
    · obtain ⟨kind, fit⟩ := needs
      exact ⟨y, old, kind, (same kind y).mp fit⟩
    · exact ⟨x, old, needs⟩

end Keeps

namespace Sound

variable {s : Store α κ}

theorem congr {s' : Store α κ} (sound : Sound fits s) (objects : s'.objects.at? = s.objects.at?)
    (holders : s'.holders.at? = s.holders.at?) : Sound fits s' := by
  have same : ∀ w p, s'.Holds w p ↔ s.Holds w p := by
    intro w p
    rw [Store.Holds, holders]
    rfl
  refine ⟨?_, ?_, ?_⟩
  · rw [objects, holders]
    exact sound.alive
  · simp only [same]
    exact sound.apart
  · simp only [objects, same]
    exact sound.kept

theorem empty : Sound fits (⟨.empty, .empty⟩ : Store α κ) where
  alive _ _ _ h := by cases h
  apart _ _ _ h := by obtain ⟨_, h, _⟩ := h; cases h
  kept _ _ h := by cases h

theorem keeps (sound : Sound fits s) {objects : Objects α} (h : Keeps fits s.objects objects) :
    Sound fits { s with objects } where
  alive w holder p at_ held := by
    obtain ⟨x, there, fit⟩ := sound.alive w holder p at_ held
    exact h.stays p x holder.kind there fit
  apart := sound.apart
  kept p x' at_ needs := by
    obtain ⟨x, old, needs⟩ := h.old p x' at_ needs
    exact sound.kept p x old needs

/-- A new object for a new holder. -/
theorem grant (sound : Sound fits s) (kind : κ) (x : α) (fit : fits kind x) :
    Sound fits ⟨s.objects.add x, s.holders.add ⟨kind, some s.objects.next⟩⟩ := by
  have held : ∀ w p, Store.Holds ⟨s.objects.add x, s.holders.add ⟨kind, some s.objects.next⟩⟩ w p →
      w = s.holders.next ∧ p = s.objects.next ∨ s.Holds w p ∧ p ≠ s.objects.next := by
    rintro w p ⟨holder, at_, held⟩
    rcases Objects.of_add at_ with ⟨rfl, rfl⟩ | ⟨_, old⟩
    · exact .inl ⟨rfl, (Option.some.inj held).symm⟩
    · obtain ⟨_, there, _⟩ := sound.alive w holder p old held
      exact .inr ⟨⟨holder, old, held⟩, Objects.ne_next there⟩
  refine ⟨?_, ?_, ?_⟩
  · intro w holder p at_ held
    rcases Objects.of_add at_ with ⟨rfl, rfl⟩ | ⟨_, old⟩
    · obtain rfl := Option.some.inj held
      exact ⟨x, s.objects.add_self x, fit⟩
    · obtain ⟨y, there, fit⟩ := sound.alive w holder p old held
      exact ⟨y, Objects.add_of_some x there, fit⟩
  · intro w w' p h h'
    rcases held w p h with ⟨rfl, rfl⟩ | ⟨h, new⟩
    · rcases held w' _ h' with ⟨rfl, _⟩ | ⟨_, other⟩
      · rfl
      · exact absurd rfl other
    · rcases held w' p h' with ⟨_, rfl⟩ | ⟨h', _⟩
      · exact absurd rfl new
      · exact sound.apart w w' p h h'
  · intro p y at_ needs
    rcases Objects.of_add at_ with ⟨rfl, rfl⟩ | ⟨_, old⟩
    · exact ⟨s.holders.next, _, s.holders.add_self _, rfl⟩
    · obtain ⟨w, holder, at_, held⟩ := sound.kept p y old needs
      exact ⟨w, holder, Objects.add_of_some _ at_, held⟩

/-- A holder lets go of its object, and the object is dropped. -/
theorem release (sound : Sound fits s) {w p : ℕ} (h : s.Holds w p) :
    Sound fits ⟨s.objects.drop p,
      s.holders.modify w fun holder => { holder with held := none }⟩ := by
  have holds : ∀ v q, Store.Holds ⟨s.objects.drop p,
      s.holders.modify w fun holder => { holder with held := none }⟩ v q →
        v ≠ w ∧ s.Holds v q := by
    rintro v q ⟨holder, at_, held⟩
    obtain ⟨old, there, ⟨_, rfl⟩ | ⟨other, rfl⟩⟩ := Objects.of_modify at_
    · cases held
    · exact ⟨other, _, there, held⟩
  refine ⟨?_, ?_, ?_⟩
  · intro v holder q at_ held
    obtain ⟨old, there, ⟨_, rfl⟩ | ⟨other, rfl⟩⟩ := Objects.of_modify at_
    · cases held
    · obtain ⟨x, at', fit⟩ := sound.alive v _ q there held
      refine ⟨x, (s.objects.drop_of_ne ?_).trans at', fit⟩
      rintro rfl
      exact other (sound.apart v w q ⟨_, there, held⟩ h)
  · intro v v' q h h'
    exact sound.apart v v' q (holds v q h).2 (holds v' q h').2
  · intro q x at_ needs
    obtain ⟨other, old⟩ := Objects.of_drop at_
    obtain ⟨v, holder, there, held⟩ := sound.kept q x old needs
    refine ⟨v, holder, (s.holders.modify_of_ne _ ?_).trans there, held⟩
    rintro rfl
    obtain ⟨holder', there', held'⟩ := h
    obtain rfl := Option.some.inj (there.symm.trans there')
    exact other (Option.some.inj (held.symm.trans held'))

/-- A holder that holds nothing goes. -/
theorem forget (sound : Sound fits s) {w : ℕ} (h : ∀ p, ¬ s.Holds w p) :
    Sound fits { s with holders := s.holders.drop w } where
  alive v holder p at_ held := sound.alive v holder p (Objects.of_drop at_).2 held
  apart v v' p := by
    rintro ⟨holder, at_, held⟩ ⟨holder', at', held'⟩
    exact sound.apart v v' p ⟨holder, (Objects.of_drop at_).2, held⟩
      ⟨holder', (Objects.of_drop at').2, held'⟩
  kept p x at_ needs := by
    obtain ⟨v, holder, there, held⟩ := sound.kept p x at_ needs
    refine ⟨v, holder, (s.holders.drop_of_ne ?_).trans there, held⟩
    rintro rfl
    exact h p ⟨holder, there, held⟩

end Sound

end Custody
