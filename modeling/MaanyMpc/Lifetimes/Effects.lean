import MaanyMpc.Lifetimes.Js
import Mathlib.Data.List.ReduceOption

/-! # What the functions do to the handles

Every function that returns at once leaves the handles alone, makes one, releases one, or, in
`dkgFinalize`, exchanges one for another. It is defined as long as the handle that it releases
has an owner. -/

namespace MaanyMpc.Lifetimes

open Custody

/-! ## Buffers -/

/-- `m'` is `m` with blocks at the addresses of `bufs`. -/
structure Filled (m m' : Memory) (bufs : List (Option ℕ)) : Prop where
  old : ∀ p x, m.at? p = some x → m'.at? p = some x
  new : ∀ p, some p ∈ bufs → (∃ content, m'.at? p = some (.block content)) ∧ m.next ≤ p
  only : ∀ p x, m'.at? p = some x → m.at? p = some x ∨ some p ∈ bufs
  apart : bufs.reduceOption.Nodup
  next : m.next ≤ m'.next

namespace Filled

variable {m m' : Memory} {bufs : List (Option ℕ)}

theorem refl (m : Memory) : Filled m m [] where
  old _ _ h := h
  new _ h := by simp at h
  only _ _ h := .inl h
  apart := List.nodup_nil
  next := Nat.le_refl _

theorem same (h : Filled m m' []) : Objects.Same m m' := by
  refine ⟨?_, h.next⟩
  funext p
  cases at' : m'.at? p with
  | some x =>
      rcases h.only p x at' with old | new
      · exact old.symm
      · simp at new
  | none =>
      cases at_ : m.at? p with
      | none => rfl
      | some x =>
          rw [h.old p x at_] at at'
          cases at'

/-- One more block. -/
theorem snoc (h : Filled m m' bufs) (content : Bytes) :
    Filled m (m'.add (.block content)) (bufs ++ [some m'.next]) where
  old p x at_ := Objects.add_of_some _ (h.old p x at_)
  new p mem := by
    rcases List.mem_append.mp mem with mem | mem
    · obtain ⟨⟨content, at'⟩, new⟩ := h.new p mem
      exact ⟨⟨content, Objects.add_of_some _ at'⟩, new⟩
    · obtain rfl := Option.some.inj (List.mem_singleton.mp mem)
      exact ⟨⟨content, m'.add_self _⟩, h.next⟩
  only p x at' := by
    rcases Objects.of_add at' with ⟨rfl, _⟩ | ⟨_, at'⟩
    · exact .inr (by simp)
    · rcases h.only p x at' with old | mem
      · exact .inl old
      · exact .inr (List.mem_append_left _ mem)
  apart := by
    rw [List.reduceOption_append]
    refine List.nodup_append.mpr ⟨h.apart, List.nodup_singleton _, ?_⟩
    intro p mem q last
    obtain ⟨⟨content, at'⟩, _⟩ := h.new p (List.reduceOption_mem_iff.mp mem)
    rw [List.mem_singleton.mp last]
    exact Objects.ne_next at'
  next := Nat.le_succ_of_le h.next

/-- No block for an empty source. -/
theorem skip (h : Filled m m' bufs) : Filled m m' (bufs ++ [none]) where
  old := h.old
  new p mem := h.new p (by simpa using mem)
  only p x at' := (h.only p x at').imp_right fun mem => List.mem_append_left _ mem
  apart := by simpa [List.reduceOption_append] using h.apart
  next := h.next

/-- The first block is freed. -/
theorem tail {p : ℕ} (h : Filled m m' (some p :: bufs)) : Filled m (m'.drop p) bufs where
  old q x at_ := by
    refine (m'.drop_of_ne ?_).trans (h.old q x at_)
    rintro rfl
    exact absurd (Objects.lt_next at_) (Nat.not_lt.mpr (h.new q (by simp)).2)
  new q mem := by
    obtain ⟨⟨content, at'⟩, new⟩ := h.new q (List.mem_cons_of_mem _ mem)
    refine ⟨⟨content, (m'.drop_of_ne ?_).trans at'⟩, new⟩
    rintro rfl
    have apart := h.apart
    rw [List.reduceOption_cons_of_some, List.nodup_cons] at apart
    exact apart.1 (List.reduceOption_mem_iff.mpr mem)
  only q x at' := by
    obtain ⟨other, at'⟩ := Objects.of_drop at'
    rcases h.only q x at' with old | mem
    · exact .inl old
    · rcases List.mem_cons.mp mem with same | mem
      · exact absurd (Option.some.inj same) other
      · exact .inr mem
  apart := by
    have apart := h.apart
    rw [List.reduceOption_cons_of_some, List.nodup_cons] at apart
    exact apart.2
  next := h.next

theorem congr {m'' : Memory} (h : Filled m m' bufs) (same : Objects.Same m' m'') :
    Filled m m'' bufs where
  old := same.at? ▸ h.old
  new := same.at? ▸ h.new
  only := same.at? ▸ h.only
  apart := h.apart
  next := Nat.le_trans h.next same.next

theorem tail_none (h : Filled m m' (none :: bufs)) : Filled m m' bufs where
  old := h.old
  new p mem := h.new p (List.mem_cons_of_mem _ mem)
  only p x at' := (h.only p x at').imp_right fun mem => by simpa using mem
  apart := by simpa using h.apart
  next := h.next

end Filled

section Buffers

variable {m m' : Memory} {ctx : ℕ} {bufs : List (Option ℕ)}

/-- The ways of `CopyOutBuffer` under a context that is there. -/
theorem copyOut_of_context (malloc : Bool) (src : Bytes) (alive : m.at? ctx = some .context) :
    copyOut m malloc ctx src = some (m, .ok none) ∨
      malloc = false ∧ copyOut m malloc ctx src = some (m, .error .memory) ∨
      copyOut m malloc ctx src = some (m.add (.block src), .ok (some m.next)) := by
  unfold copyOut
  rw [context?_eq_some.mpr alive]
  by_cases empty : src = []
  · exact .inl (if_pos empty)
  · rw [if_neg empty]
    cases malloc
    · exact .inr (.inl ⟨rfl, rfl⟩)
    · exact .inr (.inr rfl)

theorem takeBuffer_block {p : ℕ} {content : Bytes} (alive : m.at? ctx = some .context)
    (there : m.at? p = some (.block content)) :
    ∃ m', takeBuffer m ctx (some p) = some (m', content) ∧ Objects.Same (m.drop p) m' := by
  refine ⟨(m.modify p fun _ => .block (List.replicate content.length 0)).drop p, ?_,
    ⟨Function.update_idem .., Nat.le_refl _⟩⟩
  simp [takeBuffer, maanyMpcBufFree, block?_eq_some.mpr there, context?_eq_some.mpr alive]

/-- The blocks of a list of buffers are freed one after the other. -/
theorem takeEach_filled (filled : Filled m m' bufs) (alive : m.at? ctx = some .context) :
    ∃ m'' contents, takeEach m' ctx bufs = some (m'', contents) ∧ Objects.Same m m'' := by
  induction bufs generalizing m' with
  | nil => exact ⟨m', [], rfl, filled.same⟩
  | cons buf rest ih =>
      cases buf with
      | none =>
          obtain ⟨m'', contents, taken, same⟩ := ih filled.tail_none
          exact ⟨m'', [] :: contents, by simp [takeEach, takeBuffer, taken], same⟩
      | some p =>
          obtain ⟨⟨content, there⟩, _⟩ := filled.new p List.mem_cons_self
          obtain ⟨dropped, took, same⟩ := takeBuffer_block (filled.old _ _ alive) there
          obtain ⟨m'', contents, taken, at_⟩ := ih (filled.tail.congr same)
          exact ⟨m'', content :: contents, by simp [takeEach, took, taken], at_⟩

/-- The copies of a backup: a buffer for each, or `malloc_fn` fails at one. -/
theorem copyOutEach_filled (malloc : ℕ → Bool) (calls : ℕ) (srcs : List Bytes)
    (filled : Filled m m' bufs) (alive : m.at? ctx = some .context) :
    ∃ m'' copied, copyOutEach malloc ctx calls m' srcs = some (m'', copied) ∧
      ((∃ err bufs' i, copied = .error err ∧ malloc i = false ∧ Filled m m'' bufs') ∨
        ∃ bufs', copied = .ok bufs' ∧ Filled m m'' (bufs ++ bufs')) := by
  induction srcs generalizing m' bufs calls with
  | nil => exact ⟨m', .ok [], rfl, .inr ⟨[], rfl, by rwa [List.append_nil]⟩⟩
  | cons src rest ih =>
      -- one copy, then the rest with one buffer more
      have go : ∀ m₁ buf, copyOut m' (malloc calls) ctx src = some (m₁, .ok buf) →
          Filled m m₁ (bufs ++ [buf]) →
            ∃ m'' copied, copyOutEach malloc ctx calls m' (src :: rest) = some (m'', copied) ∧
              ((∃ err bufs' i, copied = .error err ∧ malloc i = false ∧ Filled m m'' bufs') ∨
                ∃ bufs', copied = .ok bufs' ∧ Filled m m'' (bufs ++ bufs')) := by
        intro m₁ buf copied filled
        obtain ⟨m'', copied', each, result⟩ := ih (calls + mallocs src) filled
        refine ⟨m'', copied'.map (buf :: ·), by simp [copyOutEach, copied, each], ?_⟩
        rcases result with ⟨err, bufs', i, rfl, fails, filled⟩ | ⟨bufs', rfl, filled⟩
        · exact .inl ⟨err, bufs', i, rfl, fails, filled⟩
        · exact .inr ⟨buf :: bufs', rfl, by simpa using filled⟩
      rcases copyOut_of_context (malloc calls) src (filled.old _ _ alive) with h | ⟨fails, h⟩ | h
      · exact go m' none h filled.skip
      · exact ⟨m', .error .memory, by simp [copyOutEach, h],
          .inl ⟨.memory, bufs, calls, rfl, fails, filled⟩⟩
      · exact go _ _ h (filled.snoc src)

end Buffers

/-! ## Effects -/

/-- A wrapper that points to `p`. -/
def Points (s : Js) (kind : WrapperKind) (w p : ℕ) : Prop :=
  s.holders.at? w = some ⟨kind, some p⟩

/-- A handle is there, and so is its owner. -/
def Owned (s : Js) (kind : HandleKind) (p : ℕ) : Prop :=
  ∃ held owner, s.objects.at? p = some (.handle kind held owner) ∧
    s.objects.at? owner = some .context

/-- A backup has memory for all that it returns. Any other call is whole. -/
def Whole : Call → Prop
  | .backupCreate malloc _ shareCount created _ _ => (∀ i, malloc i = true) ∧
      ∀ label payload shares, created = .ok (label, payload, shares) → shares.length = shareCount
  | _ => True

/-- What a call does to the memory and the wrappers. -/
inductive Effect (s : Js) : Call → Js → Prop where
  /-- buffers come and go -/
  | keep {c : Call} {objects : Memory} (same : Objects.Same s.objects objects) :
      Effect s c { s with objects }
  /-- a backup fails after some of its copies -/
  | leak {malloc : ℕ → Bool} {copied : Bool} {shareCount : ℕ}
      {created : Except BridgeException (Bytes × Bytes × List Bytes)} {ctx kp : ℕ}
      {objects : Memory} {bufs : List (Option ℕ)} (filled : Filled s.objects objects bufs)
      (short : ¬ Whole (.backupCreate malloc copied shareCount created ctx kp)) :
      Effect s (.backupCreate malloc copied shareCount created ctx kp) { s with objects }
  | grant {c : Call} (kind : WrapperKind) (object : Object) (wraps : Wraps kind object)
      (owned : ∀ kind held owner, object = .handle kind held owner →
        s.objects.at? owner = some .context) :
      Effect s c ⟨s.objects.add object, s.holders.add ⟨kind, some s.objects.next⟩⟩
  | shutdown {w p : ℕ} (points : Points s .ctx w p) :
      Effect s (.shutdown w) ⟨s.objects.drop p, clear s w⟩
  | free {kind : HandleKind} {w p : ℕ} (points : Points s (.handle kind) w p)
      (owned : Owned s kind p) : Effect s (.free kind w) ⟨s.objects.drop p, clear s w⟩
  | reset {ctx w p : ℕ} (points : Points s (.handle .dkg) w p) :
      Effect s (.dkgFinalize false (.ok ()) ctx w)
        { s with objects := s.objects.modify p Object.reset }
  | finalize {ctx c w p : ℕ} (points : Points s (.handle .dkg) w p) (owned : Owned s .dkg p)
      (alive : s.objects.at? c = some .context) :
      Effect s (.dkgFinalize true (.ok ()) ctx w)
        ⟨((s.objects.modify p Object.reset).add (.handle .keypair true c)).drop p,
          (clear s w).add ⟨.handle .keypair, some s.objects.next⟩⟩
  | collectNull {kind : WrapperKind} {w : ℕ} (points : s.holders.at? w = some ⟨kind, none⟩) :
      Effect s (.collect kind w) { s with holders := s.holders.drop w }
  | collectCtx {w p : ℕ} (points : Points s .ctx w p) :
      Effect s (.collect .ctx w) ⟨s.objects.drop p, s.holders.drop w⟩
  | collectHandle {kind : HandleKind} {w p : ℕ} (points : Points s (.handle kind) w p)
      (owned : Owned s kind p) :
      Effect s (.collect (.handle kind) w) ⟨s.objects.drop p, s.holders.drop w⟩

/-- The handle that a call releases, by its address. -/
def released (s : Js) : Call → Option (HandleKind × ℕ)
  | .free kind w | .collect (.handle kind) w =>
    ((pointer? s (.handle kind) w).join).map (kind, ·)
  | .dkgFinalize true (.ok ()) ctx w => do
    let dkg ← (pointer? s (.handle .dkg) w).join
    let _ ← (pointer? s .ctx ctx).join
    let (held, _) ← handle? s.objects .dkg dkg
    if held then some (.dkg, dkg) else none
  | _ => none

/-- The handle that a call releases still has its context. -/
def InOrder (s : Js) (c : Call) : Prop :=
  ∀ kind p, released s c = some (kind, p) → Owned s kind p

/-! ## The functions -/

section Functions

variable {s : Js}

theorem add_context {m : Memory} {kind : HandleKind} {held : Bool} {owner p : ℕ} :
    (m.add (.handle kind held owner)).at? p = some .context ↔ m.at? p = some .context := by
  refine ⟨fun there => ?_, Objects.add_of_some _⟩
  rcases Objects.of_add there with ⟨_, other⟩ | ⟨_, there⟩
  · cases other
  · exact there

@[simp] theorem reset_eq_context {object : Object} :
    object.reset = .context ↔ object = .context := by
  cases object <;> simp [Object.reset]

theorem reset_context {m : Memory} {p q : ℕ} :
    (m.modify p Object.reset).at? q = some .context ↔ m.at? q = some .context := by
  by_cases same : q = p
  · subst same
    simp
  · rw [m.modify_of_ne _ same]

theorem pointer?_eq_some {kind : WrapperKind} {w : ℕ} {pointer : Option ℕ} :
    pointer? s kind w = some pointer ↔ s.holders.at? w = some ⟨kind, pointer⟩ := by
  unfold pointer?
  cases at_ : s.holders.at? w with
  | none => simp
  | some holder =>
      obtain ⟨kind', held⟩ := holder
      by_cases same : kind' = kind <;> simp [same]

/-- A call is defined and has an effect. -/
def Defined (s : Js) (c : Call) (r : Option (Js × Reply)) : Prop :=
  ∃ s' reply, r = some (s', reply) ∧ Effect s c s'

theorem Defined.of_eq {c : Call} {s' : Js} {reply : Reply} (h : Effect s c s') :
    Defined s c (some (s', reply)) := ⟨s', reply, rfl, h⟩

/-- A wrapper that has been released. -/
theorem Defined.threw (c : Call) (message : String) : Defined s c (some (s, .threw message)) :=
  .of_eq (.keep (.refl _))

theorem wrapHandle_defined (c : Call) (context : String) (kind : HandleKind) (malloc : Bool)
    {ctx : ℕ} (made : Except BridgeException Unit) (alive : s.objects.at? ctx = some .context) :
    Defined s c (some (wrapHandle s context kind (newHandle kind s.objects malloc ctx made))) := by
  cases made with
  | error exception => exact .of_eq (.keep (.refl _))
  | ok _ =>
      cases malloc
      · exact .of_eq (.keep (.refl _))
      · refine .of_eq (.grant (.handle kind) (.handle kind true ctx) rfl ?_)
        rintro kind' held owner ⟨⟩
        exact alive

theorem takeBytes_defined (c : Call) (context : String) {ctx : ℕ} (malloc : Bool)
    (bytes : Except BridgeException Bytes) (alive : s.objects.at? ctx = some .context) :
    Defined s c (do
      let out ← returnBytes s.objects malloc ctx bytes
      takeBytes s context ctx out) := by
  cases bytes with
  | error exception => exact .of_eq (.keep (.refl _))
  | ok bytes =>
      rcases copyOut_of_context malloc bytes alive with h | ⟨_, h⟩ | h
      · exact ⟨s, .bytes [], by simp [returnBytes, h, takeBytes, takeBuffer], .keep (.refl _)⟩
      · exact ⟨s, .threw (createError context .memory), by simp [returnBytes, h, takeBytes],
          .keep (.refl _)⟩
      · obtain ⟨m', taken, same⟩ := takeBuffer_block
          (Objects.add_of_some (.block bytes) alive) (s.objects.add_self _)
        refine ⟨{ s with objects := m' }, .bytes bytes,
          by simp [returnBytes, h, takeBytes, taken], .keep ((s.objects.drop_add _).trans same)⟩

theorem Defined.require {c : Call} {pointer : Option ℕ} {message : String}
    {next : ℕ → Option (Js × Reply)} (h : ∀ p, pointer = some p → Defined s c (next p)) :
    Defined s c (require s pointer message next) := by
  cases pointer with
  | none => exact .threw c message
  | some p => exact h p rfl

/-- A handle of a wrapper. -/
def There (s : Js) (kind : HandleKind) (p : ℕ) : Prop :=
  ∃ held owner, s.objects.at? p = some (.handle kind held owner)

theorem jsInit_effect (c : Call) (malloc created : Bool) :
    Effect s c (jsInit s malloc created).1 := by
  cases malloc
  · exact .keep (.refl _)
  · cases created
    · exact .keep (s.objects.drop_add .context)
    · exact .grant .ctx .context trivial nofun

section

variable (c : Call) {ctx kp : Option ℕ}
  (contexts : ∀ p, ctx = some p → s.objects.at? p = some .context)

include contexts

theorem jsDkgNew_defined (malloc : Bool) (created : Except BridgeException Unit) :
    Defined s c (jsDkgNew s malloc created ctx) := by
  refine .require fun p pointer => ?_
  simpa [maanyMpcDkgNew, context?_eq_some.mpr (contexts p pointer)] using
    wrapHandle_defined c "maany_mpc_dkg_new" .dkg malloc created (contexts p pointer)

theorem wrapImport_defined (context : String) (malloc copied : Bool)
    (imported : Except BridgeException Unit) :
    Defined s c (requireCtx s ctx fun ctx => do
      let made ← maanyMpcKpImport s.objects malloc copied imported (some ctx)
      return wrapHandle s context .keypair made) := by
  refine .require fun p pointer => ?_
  cases copied
  · simpa [maanyMpcKpImport, context?_eq_some.mpr (contexts p pointer)] using
      .of_eq (.keep (.refl _))
  · simpa [maanyMpcKpImport, context?_eq_some.mpr (contexts p pointer)] using
      wrapHandle_defined c context .keypair malloc imported (contexts p pointer)

variable (handles : ∀ p, kp = some p → There s .keypair p)

include handles

theorem wrapNew_defined (context : String) (kind : HandleKind) (malloc : Bool)
    (created : Except BridgeException Unit) :
    Defined s c (requireCtx s ctx fun ctx => requireHandle s .keypair kp fun kp => do
      let made ← newFromKeypair kind s.objects malloc created (some ctx) (some kp)
      return wrapHandle s context kind made) := by
  refine .require fun p pointer => .require fun q keypair => ?_
  obtain ⟨held, owner, there⟩ := handles q keypair
  have read : newFromKeypair kind s.objects malloc created (some p) (some q) =
      some (if held then newHandle kind s.objects malloc p created
        else (s.objects, .error .invalidArg)) := by
    simp [newFromKeypair, context?_eq_some.mpr (contexts p pointer), handle?_eq_some.mpr there]
  rw [read]
  cases held
  · exact .of_eq (.keep (.refl _))
  · exact wrapHandle_defined c context kind malloc created (contexts p pointer)

end

section

variable (c : Call) {ctx handle : Option ℕ}

theorem jsSignSetMessage_defined (set : Except BridgeException Unit)
    (handles : ∀ p, handle = some p → There s .sign p) :
    Defined s c (jsSignSetMessage s set ctx handle) := by
  refine .require fun p _ => .require fun q sign => ?_
  obtain ⟨held, owner, there⟩ := handles q sign
  simpa [maanyMpcSignSetMessage, handle?_eq_some.mpr there] using Defined.of_eq (.keep (.refl _))

variable (contexts : ∀ p, ctx = some p → s.objects.at? p = some .context)

include contexts

theorem takeKeypair_defined (context : String) (malloc : Bool)
    (bytes : Except BridgeException Bytes)
    (handles : ∀ p, handle = some p → There s .keypair p) :
    Defined s c (requireCtx s ctx fun ctx => requireHandle s .keypair handle fun kp => do
      let out ← maanyMpcKpExport s.objects malloc bytes (some ctx) (some kp)
      takeBytes s context ctx out) := by
  refine .require fun p pointer => .require fun q keypair => ?_
  obtain ⟨held, owner, there⟩ := handles q keypair
  cases held
  · simpa [maanyMpcKpExport, context?_eq_some.mpr (contexts p pointer), handle?_eq_some.mpr there,
      takeBytes] using Defined.of_eq (.keep (.refl _))
  · simpa [maanyMpcKpExport, context?_eq_some.mpr (contexts p pointer), handle?_eq_some.mpr there]
      using takeBytes_defined c context malloc bytes (contexts p pointer)

theorem jsSignFinalize_defined (malloc : Bool) (sig : Except BridgeException Bytes)
    (handles : ∀ p, handle = some p → There s .sign p) :
    Defined s c (jsSignFinalize s malloc sig ctx handle) := by
  refine .require fun p pointer => .require fun q sign => ?_
  obtain ⟨held, owner, there⟩ := handles q sign
  cases held
  · simpa [maanyMpcSignFinalize, handle?_eq_some.mpr there, takeBytes] using
      Defined.of_eq (.keep (.refl _))
  · simpa [maanyMpcSignFinalize, handle?_eq_some.mpr there] using
      takeBytes_defined c "maany_mpc_sign_finalize" malloc sig (contexts p pointer)

end

/-- Whatever has been copied is freed, unless the backup fails. -/
theorem jsBackupCreate_defined (ctxNull kpNull : String) (malloc : ℕ → Bool) (copied : Bool)
    (shareCount : ℕ) (created : Except BridgeException (Bytes × Bytes × List Bytes))
    (c k : ℕ) {ctx kp : Option ℕ}
    (contexts : ∀ p, ctx = some p → s.objects.at? p = some .context)
    (handles : ∀ p, kp = some p → There s .keypair p) :
    Defined s (.backupCreate malloc copied shareCount created c k)
      (jsBackupCreate ctxNull kpNull s malloc copied shareCount created ctx kp) := by
  refine .require fun p pointer => .require fun q keypair => ?_
  obtain ⟨held, owner, there⟩ := handles q keypair
  have alive := contexts p pointer
  by_cases passes : (held && copied) = true
  · cases created with
    | error exception =>
        simpa [maanyMpcBackupCreate, context?_eq_some.mpr alive, handle?_eq_some.mpr there,
          passes] using Defined.of_eq (.keep (.refl _))
    | ok outputs =>
        obtain ⟨label, payload, shares⟩ := outputs
        obtain ⟨m, first, each, ⟨err, bufs, i, rfl, fails, filled⟩ | ⟨bufs, rfl, filled⟩⟩ :=
          copyOutEach_filled malloc 0 [label, payload] (.refl s.objects) alive
        · simpa [maanyMpcBackupCreate, context?_eq_some.mpr alive, handle?_eq_some.mpr there,
            passes, each] using
            Defined.of_eq (.leak filled fun whole => by simp [whole.1 i] at fails)
        rw [List.nil_append] at filled
        by_cases count : shares.length = shareCount
        · obtain ⟨m', second, each',
              ⟨err, bufs', i, rfl, fails, filled'⟩ | ⟨bufs', rfl, filled'⟩⟩ :=
            copyOutEach_filled malloc (mallocs label + mallocs payload) shares filled alive
          · simpa [maanyMpcBackupCreate, context?_eq_some.mpr alive, handle?_eq_some.mpr there,
              passes, each, count, each', Except.map] using
              Defined.of_eq (.leak filled' fun whole => by simp [whole.1 i] at fails)
          · obtain ⟨m'', contents, taken, same⟩ := takeEach_filled filled' alive
            simpa [maanyMpcBackupCreate, context?_eq_some.mpr alive, handle?_eq_some.mpr there,
              passes, each, count, each', Except.map, taken] using Defined.of_eq (.keep same)
        · simpa [maanyMpcBackupCreate, context?_eq_some.mpr alive, handle?_eq_some.mpr there,
            passes, each, count] using
            Defined.of_eq (.leak filled fun whole => count (whole.2 _ _ _ rfl))
  · simpa [maanyMpcBackupCreate, context?_eq_some.mpr alive, handle?_eq_some.mpr there, passes]
      using Defined.of_eq (.keep (.refl _))

theorem jsShutdown_defined {w : ℕ} {ctx : Option ℕ}
    (points : s.holders.at? w = some ⟨.ctx, ctx⟩)
    (contexts : ∀ p, ctx = some p → s.objects.at? p = some .context) :
    Defined s (.shutdown w) (jsShutdown s w ctx) := by
  cases ctx with
  | none => exact .of_eq (.keep (.refl _))
  | some p =>
      simpa [jsShutdown, maanyMpcShutdown, context?_eq_some.mpr (contexts p rfl)] using
        Defined.of_eq (.shutdown points)

variable {kind : HandleKind} {w p : ℕ}

/-- A handle is freed exactly if its owner is there. -/
theorem freeHandle_owned (owned : Owned s kind p) :
    freeHandle kind s.objects (some p) = some (s.objects.drop p) := by
  obtain ⟨held, owner, at_, alive⟩ := owned
  simp [freeHandle, handle?_eq_some.mpr at_, context?_eq_some.mpr alive]

theorem context?_eq_none {m : Memory} {p : ℕ} (h : m.at? p ≠ some .context) :
    context? m p = none := by
  by_contra alive
  obtain ⟨_, alive⟩ := Option.ne_none_iff_exists'.mp alive
  exact h (context?_eq_some.mp alive)

theorem freeHandle_orphaned (there : There s kind p) (orphaned : ¬ Owned s kind p) :
    freeHandle kind s.objects (some p) = none := by
  obtain ⟨held, owner, at_⟩ := there
  have gone : context? s.objects owner = none :=
    context?_eq_none fun alive => orphaned ⟨held, owner, at_, alive⟩
  simp [freeHandle, handle?_eq_some.mpr at_, gone]

/-- The two ends of `dkgFinalize` once the session has given up the key. -/
theorem finalize_owned {ctx owner : ℕ} {held : Bool}
    (there : s.objects.at? p = some (.handle .dkg held owner))
    (alive : s.objects.at? owner = some .context) :
    maanyMpcDkgFree ((s.objects.modify p Object.reset).add (.handle .keypair true ctx)) (some p) =
      some (((s.objects.modify p Object.reset).add (.handle .keypair true ctx)).drop p) := by
  have reset : (s.objects.modify p Object.reset).at? p = some (.handle .dkg false owner) := by
    rw [Objects.modify_self, there]
    rfl
  simp [maanyMpcDkgFree, freeHandle, handle?_eq_some.mpr (Objects.add_of_some _ reset),
    context?_eq_some.mpr (add_context.mpr (reset_context.mpr alive))]

theorem finalize_orphaned {ctx owner : ℕ} {held : Bool}
    (there : s.objects.at? p = some (.handle .dkg held owner))
    (gone : s.objects.at? owner ≠ some .context) :
    maanyMpcDkgFree ((s.objects.modify p Object.reset).add (.handle .keypair true ctx)) (some p) =
      none := by
  have reset : (s.objects.modify p Object.reset).at? p = some (.handle .dkg false owner) := by
    rw [Objects.modify_self, there]
    rfl
  have gone' : context? ((s.objects.modify p Object.reset).add (.handle .keypair true ctx)) owner =
      none := context?_eq_none fun alive => gone (reset_context.mp (add_context.mp alive))
  simp [maanyMpcDkgFree, freeHandle, handle?_eq_some.mpr (Objects.add_of_some _ reset), gone']

end Functions

/-! ## The calls -/

section Calls

variable {s : Js} (sound : Sound Wraps s)

include sound

theorem context_there {w p : ℕ} (points : Points s .ctx w p) :
    s.objects.at? p = some .context := by
  obtain ⟨object, there, wraps⟩ := sound.alive w _ p points rfl
  cases object with
  | context => exact there
  | handle | block => cases wraps

theorem handle_there {kind : HandleKind} {w p : ℕ} (points : Points s (.handle kind) w p) :
    There s kind p := by
  obtain ⟨object, there, wraps⟩ := sound.alive w _ p points rfl
  cases object with
  | handle kind' held owner =>
      obtain rfl : kind = kind' := wraps
      exact ⟨held, owner, there⟩
  | context | block => cases wraps

/-- A call is defined exactly if it is in order, and then it has an effect. -/
structure Spec (s : Js) (c : Call) (r : Option (Js × Reply)) : Prop where
  defined : InOrder s c → Defined s c r
  undefined : ¬ InOrder s c → r = none

omit sound in
theorem Spec.of_defined {c : Call} {r : Option (Js × Reply)} (nothing : released s c = none)
    (h : Defined s c r) : Spec s c r where
  defined _ := h
  undefined out := absurd (fun kind p some => by rw [nothing] at some; cases some) out

omit sound in
theorem inOrder_iff {c : Call} {kind : HandleKind} {p : ℕ} (h : released s c = some (kind, p)) :
    InOrder s c ↔ Owned s kind p := by
  refine ⟨fun ok => ok kind p h, fun owned kind' p' h' => ?_⟩
  rw [h] at h'
  obtain ⟨rfl, rfl⟩ := Prod.mk.inj (Option.some.inj h')
  exact owned

theorem jsFree_spec {kind : HandleKind} {w : ℕ} {pointer : Option ℕ}
    (at_ : pointer? s (.handle kind) w = some pointer) :
    Spec s (.free kind w) (jsFree kind s w pointer) := by
  cases pointer with
  | none => exact .of_defined (by simp [released, at_]) (.of_eq (.keep (.refl _)))
  | some p =>
      have points : Points s (.handle kind) w p := pointer?_eq_some.mp at_
      have releases : released s (.free kind w) = some (kind, p) := by simp [released, at_]
      constructor
      · intro ok
        have owned := (inOrder_iff releases).mp ok
        simpa [jsFree, freeHandle_owned owned] using Defined.of_eq (.free points owned)
      · intro out
        have orphaned := mt (inOrder_iff releases).mpr out
        simp [jsFree, freeHandle_orphaned (handle_there sound points) orphaned]

theorem collect_spec {kind : WrapperKind} {w : ℕ} {pointer : Option ℕ}
    (at_ : pointer? s kind w = some pointer) :
    Spec s (.collect kind w) (collect kind s w pointer) := by
  have points := pointer?_eq_some.mp at_
  cases kind with
  | ctx =>
      cases pointer with
      | none => exact .of_defined rfl (.of_eq (.collectNull points))
      | some p =>
          refine .of_defined rfl ?_
          simpa [collect, maanyMpcShutdown, context?_eq_some.mpr (context_there sound points)] using
            Defined.of_eq (.collectCtx points)
  | handle kind =>
      cases pointer with
      | none => exact .of_defined (by simp [released, at_]) (.of_eq (.collectNull points))
      | some p =>
          have releases : released s (.collect (.handle kind) w) = some (kind, p) := by
            simp [released, at_]
          constructor
          · intro ok
            have owned := (inOrder_iff releases).mp ok
            simpa [collect, freeHandle_owned owned] using
              Defined.of_eq (.collectHandle points owned)
          · intro out
            have orphaned := mt (inOrder_iff releases).mpr out
            simp [collect, freeHandle_orphaned (handle_there sound points) orphaned]

/-- Nothing is released unless the session gives up a key and there is memory for it. -/
theorem jsDkgFinalize_spec {malloc : Bool} {key : Except BridgeException Unit} {c w : ℕ}
    {ctx dkg : Option ℕ} (context : pointer? s .ctx c = some ctx)
    (handle : pointer? s (.handle .dkg) w = some dkg) :
    Spec s (.dkgFinalize malloc key c w) (jsDkgFinalize s malloc key w ctx dkg) := by
  cases ctx with
  | none =>
      refine .of_defined ?_ (.threw _ _)
      cases malloc <;> cases key <;> simp [released, context]
  | some ctx =>
  cases dkg with
  | none =>
      refine .of_defined ?_ (.threw _ _)
      cases malloc <;> cases key <;> simp [released, handle]
  | some p =>
  have points : Points s (.handle .dkg) w p := pointer?_eq_some.mp handle
  have alive := context?_eq_some.mpr (context_there sound (pointer?_eq_some.mp context))
  obtain ⟨held, owner, there⟩ := handle_there sound points
  have read := handle?_eq_some.mpr there
  simp only [jsDkgFinalize, requireCtx, requireHandle, Lifetimes.require]
  cases held with
  | false =>
      refine .of_defined ?_ ?_
      · cases malloc <;> cases key <;> simp [released, handle, context, read]
      · simpa [maanyMpcDkgFinalize, read] using Defined.of_eq (.keep (.refl _))
  | true =>
  cases key with
  | error exception =>
      refine .of_defined (by cases malloc <;> rfl) ?_
      simpa [maanyMpcDkgFinalize, read] using Defined.of_eq (.keep (.refl _))
  | ok done =>
  cases done
  cases malloc with
  | false =>
      refine .of_defined rfl ?_
      simpa [maanyMpcDkgFinalize, read, alive, newHandle] using Defined.of_eq (.reset points)
  | true =>
      have releases : released s (.dkgFinalize true (.ok ()) c w) = some (.dkg, p) := by
        simp [released, handle, context, read]
      constructor
      · intro ok
        obtain ⟨held', owner', there', alive'⟩ := (inOrder_iff releases).mp ok
        simpa [maanyMpcDkgFinalize, read, alive, newHandle, finalize_owned there' alive'] using
          Defined.of_eq (.finalize (c := ctx) points ⟨held', owner', there', alive'⟩
            (context_there sound (pointer?_eq_some.mp context)))
      · intro out
        have gone : s.objects.at? owner ≠ some .context := fun alive' =>
          out ((inOrder_iff releases).mpr ⟨true, owner, there, alive'⟩)
        simp [maanyMpcDkgFinalize, read, alive, newHandle, finalize_orphaned there gone]

theorem call_spec (texts : BackupTexts) {c : Call} {r : Option (Js × Reply)}
    (h : call texts s c = some r) : Spec s c r := by
  have contexts : ∀ {w : ℕ} {ctx : Option ℕ}, pointer? s .ctx w = some ctx →
      ∀ p, ctx = some p → s.objects.at? p = some .context := by
    rintro w ctx at_ p rfl
    exact context_there sound (pointer?_eq_some.mp at_)
  have handles : ∀ {kind : HandleKind} {w : ℕ} {handle : Option ℕ},
      pointer? s (.handle kind) w = some handle → ∀ p, handle = some p → There s kind p := by
    rintro kind w handle at_ p rfl
    exact handle_there sound (pointer?_eq_some.mp at_)
  cases c <;> simp only [call, Option.map_eq_some_iff, Option.bind_eq_bind, Option.bind_eq_some_iff,
    Option.pure_def, Option.some.injEq] at h
  case init malloc created =>
    subst h
    exact .of_defined rfl (.of_eq (jsInit_effect _ malloc created))
  case shutdown w =>
    obtain ⟨ctx, at_, rfl⟩ := h
    exact .of_defined rfl (jsShutdown_defined (pointer?_eq_some.mp at_) (contexts at_))
  case dkgNew malloc created w =>
    obtain ⟨ctx, at_, rfl⟩ := h
    exact .of_defined rfl (jsDkgNew_defined _ (contexts at_) malloc created)
  case kpImport malloc copied imported w =>
    obtain ⟨ctx, at_, rfl⟩ := h
    exact .of_defined rfl (wrapImport_defined _ (contexts at_) _ malloc copied imported)
  case backupRestore malloc copied restored w =>
    obtain ⟨ctx, at_, rfl⟩ := h
    exact .of_defined rfl (wrapImport_defined _ (contexts at_) _ malloc copied restored)
  case signNew malloc created w k =>
    obtain ⟨ctx, at_, kp, at', rfl⟩ := h
    exact .of_defined rfl (wrapNew_defined _ (contexts at_) (handles at') _ .sign malloc created)
  case refreshNew malloc created w k =>
    obtain ⟨ctx, at_, kp, at', rfl⟩ := h
    exact .of_defined rfl (wrapNew_defined _ (contexts at_) (handles at') _ .dkg malloc created)
  case dkgFinalize malloc key w d =>
    obtain ⟨ctx, at_, dkg, at', rfl⟩ := h
    exact jsDkgFinalize_spec sound at_ at'
  case kpExport malloc blob w k =>
    obtain ⟨ctx, at_, kp, at', rfl⟩ := h
    exact .of_defined rfl (takeKeypair_defined _ (contexts at_) _ malloc blob (handles at'))
  case kpPubkey malloc compressed w k =>
    obtain ⟨ctx, at_, kp, at', rfl⟩ := h
    exact .of_defined rfl (takeKeypair_defined _ (contexts at_) _ malloc compressed (handles at'))
  case signFinalize malloc sig w g =>
    obtain ⟨ctx, at_, sign, at', rfl⟩ := h
    exact .of_defined rfl (jsSignFinalize_defined _ (contexts at_) malloc sig (handles at'))
  case signSetMessage set w g =>
    obtain ⟨ctx, at_, sign, at', rfl⟩ := h
    exact .of_defined rfl (jsSignSetMessage_defined _ set (handles at'))
  case backupCreate malloc copied shareCount created w k =>
    obtain ⟨ctx, at_, kp, at', rfl⟩ := h
    exact .of_defined rfl (jsBackupCreate_defined _ _ malloc copied shareCount created w k
      (contexts at_) (handles at'))
  case free kind w =>
    obtain ⟨handle, at_, rfl⟩ := h
    exact jsFree_spec sound at_
  case collect kind w =>
    obtain ⟨pointer, at_, rfl⟩ := h
    exact collect_spec sound at_

end Calls

/-! ## What an effect keeps -/

section Keeps

variable {s s' : Js} {c : Call}

theorem Filled.keeps {m m' : Memory} {bufs : List (Option ℕ)} (h : Filled m m' bufs) :
    Keeps Wraps m m' where
  stays p x kind at_ wraps := ⟨x, h.old p x at_, wraps⟩
  old p x at' needs := by
    rcases h.only p x at' with old | mem
    · exact ⟨x, old, needs⟩
    · obtain ⟨⟨content, block⟩, _⟩ := h.new p mem
      obtain rfl := Option.some.inj (at'.symm.trans block)
      obtain ⟨kind, wraps⟩ := needs
      cases kind <;> cases wraps

theorem wraps_reset (kind : WrapperKind) (object : Object) :
    Wraps kind object.reset ↔ Wraps kind object := by
  cases kind <;> cases object <;> rfl

/-- What is held is there, by one wrapper, and nothing else is left. -/
theorem Effect.sound (sound : Sound Wraps s) (h : Effect s c s') : Sound Wraps s' := by
  cases h with
  | keep same => exact sound.congr same.at? rfl
  | leak filled _ => exact sound.keeps filled.keeps
  | grant kind object wraps _ => exact sound.grant kind object wraps
  | shutdown points => exact sound.release ⟨_, points, rfl⟩
  | free points _ => exact sound.release ⟨_, points, rfl⟩
  | reset points => exact sound.keeps (.modify _ _ wraps_reset)
  | @finalize _ c w p points =>
      -- the handle goes, and then the keypair comes
      have reset := sound.keeps (.modify s.objects p wraps_reset)
      have gone := reset.release (w := w) (p := p) ⟨_, points, rfl⟩
      have granted := gone.grant (.handle .keypair) (.handle .keypair true c) rfl
      obtain ⟨_, there, _⟩ := sound.alive w _ p points rfl
      have old : p ≠ s.objects.next := Objects.ne_next there
      exact granted.congr
        (Objects.drop_add_comm (s.objects.modify p Object.reset) _ old).symm rfl
  | collectNull points =>
      refine sound.forget ?_
      rintro p ⟨holder, at_, held⟩
      rw [points, Option.some.injEq] at at_
      subst at_
      cases held
  | collectCtx points | collectHandle points =>
      have gone := sound.release ⟨_, points, rfl⟩
      refine (gone.forget ?_).congr rfl (Objects.drop_modify ..).symm
      rintro q ⟨holder, at_, held⟩
      obtain ⟨old, _, ⟨_, rfl⟩ | ⟨other, _⟩⟩ := Objects.of_modify at_
      · cases held
      · exact other rfl

theorem wraps_of_needs {object : Object} (kind : WrapperKind) (wraps : Wraps kind object)
    (content : Bytes) : object ≠ .block content := by
  rintro rfl
  cases kind <;> cases wraps

/-- Only a backup that fails leaves a block behind. -/
theorem Effect.old_block (h : Effect s c s') (whole : Whole c) {p : ℕ} {content : Bytes}
    (at' : s'.objects.at? p = some (.block content)) :
    s.objects.at? p = some (.block content) := by
  have reset : ∀ q r, (s.objects.modify q Object.reset).at? r = some (.block content) →
      s.objects.at? r = some (.block content) := by
    intro q r at_
    obtain ⟨object, old, ⟨_, same⟩ | ⟨_, same⟩⟩ := Objects.of_modify at_
    · cases object <;> cases same
      exact old
    · exact same ▸ old
  cases h with
  | keep same => exact same.at? ▸ at'
  | leak _ short => exact absurd whole short
  | grant _ _ wraps _ =>
      rcases Objects.of_add at' with ⟨_, rfl⟩ | ⟨_, old⟩
      · exact absurd rfl (wraps_of_needs _ wraps content)
      · exact old
  | shutdown | free | collectCtx | collectHandle => exact (Objects.of_drop at').2
  | reset => exact reset _ _ at'
  | finalize =>
      rcases Objects.of_add (Objects.of_drop at').2 with ⟨_, other⟩ | ⟨_, old⟩
      · cases other
      · exact reset _ _ old
  | collectNull => exact at'

/-- What is gone stays gone. -/
theorem Effect.gone (h : Effect s c s') {p : ℕ} (gone : Objects.Gone s.objects p) :
    Objects.Gone s'.objects p := by
  cases h with
  | keep same => exact gone.same same
  | leak filled _ =>
      refine ⟨?_, Nat.lt_of_lt_of_le gone.old filled.next⟩
      by_contra there
      obtain ⟨x, at'⟩ := Option.ne_none_iff_exists'.mp there
      rcases filled.only p x at' with old | mem
      · rw [gone.none] at old
        cases old
      · exact absurd gone.old (Nat.not_lt.mpr (filled.new p mem).2)
  | grant => exact gone.add _
  | shutdown | free | collectCtx | collectHandle => exact gone.drop _
  | reset => exact gone.modify _ _
  | finalize => exact ((gone.modify _ _).add _).drop _
  | collectNull => exact gone

/-- A wrapper that holds a handle whose context is gone. -/
structure Stranded (s : Js) (kind : HandleKind) (w p owner : ℕ) : Prop where
  points : Points s (.handle kind) w p
  there : ∃ held, s.objects.at? p = some (.handle kind held owner)
  gone : Objects.Gone s.objects owner

theorem Stranded.not_owned {kind kind' : HandleKind} {w p owner : ℕ}
    (stranded : Stranded s kind w p owner) : ¬ Owned s kind' p := by
  obtain ⟨held, there⟩ := stranded.there
  rintro ⟨held', owner', there', alive⟩
  rw [there, Option.some.injEq, Object.handle.injEq] at there'
  obtain ⟨_, _, rfl⟩ := there'
  rw [stranded.gone.none] at alive
  cases alive

/-- The context of a handle goes first. -/
theorem Stranded.of_call (sound : Sound Wraps s) {texts : BackupTexts} {v w p owner : ℕ}
    {kind : HandleKind} {held : Bool} {reply : Reply}
    (called : call texts s c = some (some (s', reply)))
    (ends : c = .shutdown v ∨ c = .collect .ctx v) (context : Points s .ctx v owner)
    (handle : Points s (.handle kind) w p)
    (made : s.objects.at? p = some (.handle kind held owner)) : Stranded s' kind w p owner := by
  have alive := context_there sound context
  have other : w ≠ v := by
    rintro rfl
    cases handle.symm.trans context
  have stays : (s.objects.drop owner).at? p = some (.handle kind held owner) := by
    refine (s.objects.drop_of_ne ?_).trans made
    rintro rfl
    rw [alive] at made
    cases made
  have gone : Objects.Gone (s.objects.drop owner) owner := .of_drop alive
  rcases ends with rfl | rfl
  · have ran : call texts s (.shutdown v) =
        some (some (⟨s.objects.drop owner, clear s v⟩, .undefined)) := by
      simp [call, pointer?_eq_some.mpr context, jsShutdown, maanyMpcShutdown,
        context?_eq_some.mpr alive]
    cases ran.symm.trans called
    exact ⟨(s.holders.modify_of_ne _ other).trans handle, ⟨held, stays⟩, gone⟩
  · have ran : call texts s (.collect .ctx v) =
        some (some (⟨s.objects.drop owner, s.holders.drop v⟩, .undefined)) := by
      simp [call, pointer?_eq_some.mpr context, collect, maanyMpcShutdown,
        context?_eq_some.mpr alive]
    cases ran.symm.trans called
    exact ⟨(s.holders.drop_of_ne other).trans handle, ⟨held, stays⟩, gone⟩

/-- A handle whose context is gone can neither be released nor be collected any more. -/
theorem Effect.stranded (sound : Sound Wraps s) (h : Effect s c s') {kind : HandleKind}
    {w p owner : ℕ} (stranded : Stranded s kind w p owner) : Stranded s' kind w p owner := by
  obtain ⟨held, there⟩ := stranded.there
  have points := stranded.points
  -- no handle that is released is this one
  have other : ∀ {kind' : HandleKind} {v q : ℕ}, Points s (.handle kind') v q →
      Owned s kind' q → w ≠ v ∧ p ≠ q := by
    refine fun points' owned => ⟨?_, ?_⟩
    · rintro rfl
      obtain ⟨⟨⟩, ⟨⟩⟩ := points.symm.trans points'
      exact stranded.not_owned owned
    · rintro rfl
      exact stranded.not_owned owned
  have context : ∀ {v q : ℕ}, Points s .ctx v q → w ≠ v ∧ p ≠ q := by
    refine fun points' => ⟨?_, ?_⟩
    · rintro rfl
      cases points.symm.trans points'
    · rintro rfl
      rw [context_there sound points'] at there
      cases there
  have reset : ∀ q, ∃ held', (s.objects.modify q Object.reset).at? p =
      some (.handle kind held' owner) := by
    intro q
    by_cases same : p = q
    · subst same
      exact ⟨false, by rw [Objects.modify_self, there]; rfl⟩
    · exact ⟨held, (s.objects.modify_of_ne _ same).trans there⟩
  have dropped : ∀ {q : ℕ}, p ≠ q → ∃ held', (s.objects.drop q).at? p =
      some (.handle kind held' owner) := fun ne => ⟨held, (s.objects.drop_of_ne ne).trans there⟩
  have cleared : ∀ {v : ℕ}, w ≠ v → (clear s v).at? w = some ⟨.handle kind, some p⟩ :=
    fun ne => (s.holders.modify_of_ne _ ne).trans points
  have gone := h.gone stranded.gone
  cases h with
  | keep same => exact ⟨points, ⟨held, same.at? ▸ there⟩, gone⟩
  | leak filled _ => exact ⟨points, ⟨held, filled.old _ _ there⟩, gone⟩
  | grant =>
      exact ⟨Objects.add_of_some _ points, ⟨held, Objects.add_of_some _ there⟩, gone⟩
  | shutdown points' =>
      obtain ⟨ne, ne'⟩ := context points'
      exact ⟨cleared ne, dropped ne', gone⟩
  | free points' owned =>
      obtain ⟨ne, ne'⟩ := other points' owned
      exact ⟨cleared ne, dropped ne', gone⟩
  | reset => exact ⟨points, reset _, gone⟩
  | finalize points' owned _ =>
      obtain ⟨ne, ne'⟩ := other points' owned
      obtain ⟨held', at_⟩ := reset _
      exact ⟨Objects.add_of_some _ (cleared ne),
        ⟨held', (Objects.drop_of_ne _ ne').trans (Objects.add_of_some _ at_)⟩, gone⟩
  | collectNull points' =>
      refine ⟨(s.holders.drop_of_ne ?_).trans points, ⟨held, there⟩, gone⟩
      rintro rfl
      cases points.symm.trans points'
  | collectCtx points' =>
      obtain ⟨ne, ne'⟩ := context points'
      exact ⟨(s.holders.drop_of_ne ne).trans points, dropped ne', gone⟩
  | collectHandle points' owned =>
      obtain ⟨ne, ne'⟩ := other points' owned
      exact ⟨(s.holders.drop_of_ne ne).trans points, dropped ne', gone⟩

end Keeps

end MaanyMpc.Lifetimes
