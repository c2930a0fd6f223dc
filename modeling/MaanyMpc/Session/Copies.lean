import MaanyMpc.Library.Blocks
import MaanyMpc.Session.Handle
import MaanyMpc.Session.Sessions

/-! # Copies of a signature

`Finalize` copies one of the two vectors of a sign session, `CopyOutBuffer` copies that copy to
memory of `malloc_fn`, and `maany_mpc_sign_finalize` wipes it. What the caller has got is its
own: it may write to it, and `maany_mpc_buf_free` wipes it as well. -/

namespace MaanyMpc

open Transition

/-- What `Finalize` takes for this format. -/
def Signature.inFormat (sg : Signature) (fmt : SigFormat) : Bytes :=
  if fmt = .der then sg.der else sg.raw

/-- The memory of a sign session that has a signature, and of its caller. -/
structure SignMemory where
  blocks : Blocks UInt8
  /-- the data of `signature_der_` -/
  der : ℕ
  /-- the data of `signature_raw_` -/
  raw : ℕ
  /-- the signatures that the caller has got and not freed -/
  held : List ℕ

inductive MemoryAction where
  /-- a finalize call whose own copy is at `sig`, and for which `malloc_fn` has `out` -/
  | finalize (fmt : SigFormat) (sig : ℕ) (out : Option ℕ)
  /-- the caller writes to a signature that it has got -/
  | write (out : ℕ) (content : Bytes)
  /-- `maany_mpc_buf_free` -/
  | bufFree (out : ℕ)

/-- A finalize call and what it returns. -/
structure SignReply where
  fmt : SigFormat
  malloc : Bool
  status : MaanyMpcError
  out : Option Bytes

namespace SignMemory

def source (m : SignMemory) (fmt : SigFormat) : ℕ :=
  if fmt = .der then m.der else m.raw

/-- `maany_mpc_sign_finalize` from the copy of `src` to the end of the life of `sig`. Without
memory for the caller it is not wiped. -/
def copyOut (m : SignMemory) (fmt : SigFormat) (src : Bytes) (sig : ℕ) :
    Option ℕ → SignMemory × SignReply
  | none =>
    ({ m with blocks := (m.blocks.store sig src).free sig }, ⟨fmt, false, .memory, none⟩)
  | some out =>
    let copied := (m.blocks.store sig src).copy sig out
    ({ m with blocks := (copied.fill sig 0).free sig, held := out :: m.held },
      ⟨fmt, true, .ok, copied out⟩)

/-- New blocks are put where there are none. -/
def fresh (m : SignMemory) (sig : ℕ) : Option ℕ → Bool
  | none => (m.blocks sig).isNone
  | some out => (m.blocks sig).isNone && (m.blocks out).isNone && out != sig

def step (m : SignMemory) : MemoryAction → Option (SignMemory × List SignReply)
  | .finalize fmt sig out =>
    match m.blocks (m.source fmt) with
    | none => none
    | some [] => some (m, [⟨fmt, out.isSome, translateException
        (.error ⟨.protocolState, "requested signature format unavailable"⟩), none⟩])
    | some (byte :: rest) =>
      if m.fresh sig out then
        let (m', reply) := m.copyOut fmt (byte :: rest) sig out
        some (m', [reply])
      else none
  | .write out content =>
    if out ∈ m.held then some ({ m with blocks := m.blocks.store out content }, []) else none
  | .bufFree out =>
    if out ∈ m.held then
      some ({ m with blocks := (m.blocks.fill out 0).free out, held := m.held.erase out }, [])
    else none

end SignMemory

/-- The worker has put the signature at `der` and at `raw`, among whatever else there is. -/
def signMemory (others : Blocks UInt8) (der raw : ℕ) (sg : Signature) :
    Machine SignMemory MemoryAction SignReply where
  init := ⟨(others.store der sg.der).store raw sg.raw, der, raw, []⟩
  step := SignMemory.step

/-! ## The session keeps its own -/

/-- The session has the signature, and the caller has none of the memory it is in. -/
structure SignMemory.Keeps (sg : Signature) (m : SignMemory) : Prop where
  der : m.blocks m.der = some sg.der
  raw : m.blocks m.raw = some sg.raw
  der_own : m.der ∉ m.held
  raw_own : m.raw ∉ m.held

/-- What the call returns is what the handle of the session makes of the signature. -/
def SignReply.Returns (sg : Signature) (reply : SignReply) : Prop :=
  (reply.status, reply.out) = signFinalize.wrap reply.malloc (sg.inFormat reply.fmt)

section Step

variable {sg : Signature} {m m' : SignMemory} {a : MemoryAction} {replies : List SignReply}

theorem signFinalize_wrap (malloc : Bool) {sig : Bytes} (some_byte : sig ≠ []) :
    signFinalize.wrap malloc sig = if malloc then (.ok, some sig) else (.memory, none) := by
  cases sig with
  | nil => exact (some_byte rfl).elim
  | cons byte rest => cases malloc <;> rfl

theorem SignMemory.Keeps.source (keeps : m.Keeps sg) (fmt : SigFormat) :
    m.blocks (m.source fmt) = some (sg.inFormat fmt) := by
  unfold SignMemory.source Signature.inFormat
  split
  · exact keeps.der
  · exact keeps.raw

/-- Writing elsewhere, and giving the caller what the session does not have. -/
theorem SignMemory.Keeps.frame (keeps : m.Keeps sg) {blocks : Blocks UInt8} {held : List ℕ}
    (der : blocks m.der = m.blocks m.der) (raw : blocks m.raw = m.blocks m.raw)
    (der_own : m.der ∉ held) (raw_own : m.raw ∉ held) :
    ({ m with blocks := blocks, held := held } : SignMemory).Keeps sg :=
  ⟨der.trans keeps.der, raw.trans keeps.raw, der_own, raw_own⟩

theorem SignMemory.Keeps.ne_of_free (keeps : m.Keeps sg) {p : ℕ} (free : m.blocks p = none) :
    m.der ≠ p ∧ m.raw ≠ p :=
  ⟨Blocks.ne_of_free keeps.der free, Blocks.ne_of_free keeps.raw free⟩

theorem SignMemory.Keeps.ne_of_held (keeps : m.Keeps sg) {p : ℕ} (held : p ∈ m.held) :
    m.der ≠ p ∧ m.raw ≠ p :=
  ⟨fun same => keeps.der_own (same ▸ held), fun same => keeps.raw_own (same ▸ held)⟩

theorem SignMemory.fresh_iff (m : SignMemory) (sig : ℕ) (out : Option ℕ) :
    m.fresh sig out ↔ m.blocks sig = none ∧ ∀ p ∈ out, m.blocks p = none ∧ p ≠ sig := by
  cases out <;> simp [SignMemory.fresh, and_assoc]

theorem SignMemory.Keeps.copyOut (keeps : m.Keeps sg) {fmt : SigFormat} {sig : ℕ}
    {out : Option ℕ} (fresh : m.fresh sig out) :
    (m.copyOut fmt (sg.inFormat fmt) sig out).1.Keeps sg := by
  obtain ⟨unused, outside⟩ := (m.fresh_iff sig out).mp fresh
  obtain ⟨der_sig, raw_sig⟩ := keeps.ne_of_free unused
  cases out with
  | none => exact keeps.frame (by simp [der_sig]) (by simp [raw_sig]) keeps.der_own keeps.raw_own
  | some p =>
      obtain ⟨der_p, raw_p⟩ := keeps.ne_of_free (outside p rfl).1
      refine keeps.frame ?_ ?_ ?_ ?_
      · simp [der_sig, der_p]
      · simp [raw_sig, raw_p]
      · simp [der_p, keeps.der_own]
      · simp [raw_p, keeps.raw_own]

theorem SignMemory.copyOut_returns (m : SignMemory) {fmt : SigFormat} {sig : ℕ} {out : Option ℕ}
    (some_byte : sg.inFormat fmt ≠ []) :
    (m.copyOut fmt (sg.inFormat fmt) sig out).2.Returns sg := by
  cases out with
  | none =>
      have full := signFinalize_wrap false some_byte
      exact full.symm
  | some p =>
      have copied := signFinalize_wrap true some_byte
      rw [if_pos rfl] at copied
      simp [SignReply.Returns, SignMemory.copyOut, copied]

theorem SignMemory.Keeps.step (keeps : m.Keeps sg) (some_byte : ∀ fmt, sg.inFormat fmt ≠ [])
    (hstep : m.step a = some (m', replies)) :
    m'.Keeps sg ∧ ∀ reply ∈ replies, reply.Returns sg := by
  cases a with
  | finalize fmt sig out =>
      have source := keeps.source fmt
      obtain ⟨byte, rest, bytes⟩ := List.exists_cons_of_ne_nil (some_byte fmt)
      rw [bytes] at source
      simp only [SignMemory.step, source] at hstep
      split_ifs at hstep with fresh
      obtain ⟨rfl, rfl⟩ := Prod.mk.inj (Option.some.inj hstep)
      rw [← bytes]
      refine ⟨keeps.copyOut fresh, ?_⟩
      intro reply mem
      rw [List.mem_singleton.mp mem]
      exact m.copyOut_returns (some_byte fmt)
  | write out content =>
      simp only [SignMemory.step] at hstep
      split_ifs at hstep with held
      obtain ⟨rfl, rfl⟩ := Prod.mk.inj (Option.some.inj hstep)
      obtain ⟨der_out, raw_out⟩ := keeps.ne_of_held held
      refine ⟨keeps.frame ?_ ?_ keeps.der_own keeps.raw_own, by simp⟩
      · rw [Blocks.store_of_ne _ _ der_out]
      · rw [Blocks.store_of_ne _ _ raw_out]
  | bufFree out =>
      simp only [SignMemory.step] at hstep
      split_ifs at hstep with held
      obtain ⟨rfl, rfl⟩ := Prod.mk.inj (Option.some.inj hstep)
      obtain ⟨der_out, raw_out⟩ := keeps.ne_of_held held
      refine ⟨keeps.frame ?_ ?_ ?_ ?_, by simp⟩
      · rw [Blocks.free_of_ne _ der_out, Blocks.fill_of_ne _ _ der_out]
      · rw [Blocks.free_of_ne _ raw_out, Blocks.fill_of_ne _ _ raw_out]
      · exact fun mem => keeps.der_own (List.mem_of_mem_erase mem)
      · exact fun mem => keeps.raw_own (List.mem_of_mem_erase mem)

end Step

/-- Whatever becomes of the copies, a call returns what it would have returned before. -/
theorem run_returns {others : Blocks UInt8} {der raw : ℕ} {sg : Signature} (apart : der ≠ raw)
    (some_byte : ∀ fmt, sg.inFormat fmt ≠ []) {taken : List (SignMemory × MemoryAction)}
    {replies : List SignReply} {m : SignMemory}
    (run : (signMemory others der raw sg).Run taken replies m) :
    ∀ reply ∈ replies, reply.Returns sg := by
  refine run.guarded_events (fun _ _ => True) (SignMemory.Keeps sg) (SignReply.Returns sg) ?_ ?_
    (fun _ _ => trivial)
  · exact ⟨by simp [signMemory, apart], by simp [signMemory], by simp [signMemory],
      by simp [signMemory]⟩
  · intro m a m' replies keeps _ hstep
    exact keeps.step some_byte hstep

end MaanyMpc
