import MaanyMpc.Bindings.BackupObjects

/-! # What backupRestore reads

The addon goes on reading under an exception, and what it has not read it looks at all the same.
The host object throws at once, but converts numbers that may be out of range. -/

namespace MaanyMpc

/-! ## What is read without an exception -/

/-- The addon goes on with a value, and no exception is pending. -/
def Gives {α : Type} (m : NapiM α) (a : α) : Prop := m none = some (some a, none)

/-- The addon goes on with a value although an exception is pending. -/
def Taints {α : Type} (m : NapiM α) : Prop := ∃ a err, m none = some (some a, some err)

/-- The addon goes on with a value and without an exception, or leaves. -/
def Settles {α : Type} (m : NapiM α) : Prop :=
  (∃ a, Gives m a) ∨ ∃ pending, m none = some (none, pending)

section Monad

variable {α β : Type} {m : NapiM α} {f : α → NapiM β} {pending pending' : Option BindingError}

theorem NapiM.bind_of_eq {a : α} (h : m pending = some (some a, pending')) :
    (m >>= f) pending = f a pending' := by
  change (m pending).bind _ = _
  rw [h]
  rfl

theorem NapiM.bind_of_left (h : m pending = some (none, pending')) :
    (m >>= f) pending = some (none, pending') := by
  change (m pending).bind _ = _
  rw [h]
  rfl

theorem Settles.bind (h : Settles m) (h' : ∀ a, Settles (f a)) : Settles (m >>= f) := by
  obtain ⟨a, gives⟩ | ⟨pending, left⟩ := h
  · obtain ⟨b, gives'⟩ | ⟨pending, left⟩ := h' a
    · exact .inl ⟨b, (NapiM.bind_of_eq gives).trans gives'⟩
    · exact .inr ⟨pending, (NapiM.bind_of_eq gives).trans left⟩
  · exact .inr ⟨pending, NapiM.bind_of_left left⟩

theorem Settles.pure (a : α) : Settles (pure a : NapiM α) := .inl ⟨a, rfl⟩

theorem Settles.of_eq {m' : NapiM α} (same : m none = m' none) (h : Settles m') :
    Settles m := by
  obtain ⟨a, gives⟩ | ⟨pending, left⟩ := h
  · exact .inl ⟨a, same.trans gives⟩
  · exact .inr ⟨pending, same.trans left⟩

theorem Settles.ne_none (h : Settles m) : m none ≠ none := by
  obtain ⟨a, gives⟩ | ⟨pending, left⟩ := h
  · exact gives ▸ Option.some_ne_none _
  · exact left ▸ Option.some_ne_none _

end Monad

/-! ## Fields -/

/-- A text that `parse` takes for `a`. -/
def TextOf {α : Type} (parse : String → Option α) (a : α) (value : JsField) : Prop :=
  ∃ text, value = .string text ∧ parse text = some a

def Known {α : Type} (parse : String → Option α) (value : JsField) : Prop :=
  ∃ a, TextOf parse a value

def TextsKnown (object : JsCiphertext) : Prop :=
  Known shareKind? object.kind ∧ Known curve? object.curve ∧ Known scheme? object.scheme

/-- A label that is missing, or bytes. -/
def LabelRead (value : JsField) : Prop :=
  value = .undefined ∨ value = .null ∨ ∃ bytes, value = .uint8Array bytes

/-- A key id of the right length. -/
def KeyIdRead (value : JsField) : Prop := ∃ bytes, value = .uint8Array bytes ∧ bytes.length = 32

/-- The key id is read and the label is not. -/
def LabelMissed (object : JsCiphertext) : Prop :=
  KeyIdRead object.keyId ∧ ¬ LabelRead object.label

def InRange (value : JsField) : Prop := ∃ n, value = .number n ∧ 0 ≤ n ∧ n < 2 ^ 32

def OutOfRange (value : JsField) : Prop := ∃ n, value = .number n ∧ ¬ (0 ≤ n ∧ n < 2 ^ 32)

/-! ## Views -/

/-- The number that a bound of a view stands for. -/
def JsExtent.Is (bound : JsExtent) (missing n : ℕ) : Prop :=
  bound = .missing ∧ n = missing ∨ bound = .number n ∧ n < 2 ^ 64

def JsExtent.OutOfRange (bound : JsExtent) : Prop := ∃ n, bound = .number n ∧ ¬ (0 ≤ n ∧ n < 2 ^ 64)

/-- The bytes that the host object takes a value for. -/
def GivenBytes (value : JsField) (bytes : Bytes) : Prop :=
  value = .uint8Array bytes ∨ value = .arrayBuffer bytes ∨
    ∃ buffer byteOffset byteLength offset length,
      value = .view (some buffer) byteOffset byteLength ∧ byteOffset.Is 0 offset ∧
        byteLength.Is buffer.length length ∧ length < 2 ^ 63 ∧ offset + length ≤ buffer.length ∧
        bytes = (buffer.drop offset).take length

/-- A view of an `ArrayBuffer` with a bound out of range, or with bounds whose sum wraps back into
the buffer. -/
def ViewMissed (value : JsField) : Prop :=
  ∃ buffer byteOffset byteLength, value = .view (some buffer) byteOffset byteLength ∧
    (byteOffset.OutOfRange ∨ ∃ offset, byteOffset.Is 0 offset ∧
      (byteLength.OutOfRange ∨ ∃ length, byteLength.Is buffer.length length ∧ length < 2 ^ 63 ∧
        buffer.length < offset + length ∧ (offset + length) % 2 ^ 64 ≤ buffer.length))

/-- Bytes that are not empty. -/
def Filled (value : JsField) : Prop := ∃ bytes, GivenBytes value bytes ∧ bytes ≠ []

/-! ## One reading after another -/

/-- When something is read, and when what the host object does with it is undefined. -/
structure Reading where
  read : Prop
  missed : Prop

/-- What is not read throws, unless it is missed. -/
def FirstMissed : List Reading → Prop
  | [] => False
  | reading :: rest => reading.missed ∨ reading.read ∧ FirstMissed rest

def JsCiphertext.readings (object : JsCiphertext) : List Reading :=
  [⟨Known shareKind? object.kind, False⟩, ⟨Known curve? object.curve, False⟩,
    ⟨Known scheme? object.scheme, False⟩,
    ⟨InRange object.threshold, OutOfRange object.threshold⟩,
    ⟨InRange object.shareCount, OutOfRange object.shareCount⟩,
    ⟨∃ bytes, GivenBytes object.keyId bytes ∧ bytes.length = 32, ViewMissed object.keyId⟩,
    ⟨∃ bytes, GivenBytes object.label bytes, ViewMissed object.label⟩,
    ⟨Filled object.blob, ViewMissed object.blob⟩]

/-- The array is not looked into unless there are as many shares as the threshold. -/
def sharesReadings (threshold : JsField) : Option (List JsField) → List Reading
  | none => [⟨False, False⟩]
  | some shares =>
    ⟨∃ n : ℕ, threshold = .number n ∧ n ≤ shares.length, False⟩ ::
      shares.map fun share => ⟨Filled share, ViewMissed share⟩

/-- What `backupRestore` reads, in this order. -/
def JsBackup.readings (backup : JsBackup) : List Reading :=
  match backup.ciphertext with
  | none => [⟨False, False⟩]
  | some object => object.readings ++ sharesReadings object.threshold backup.shares

theorem firstMissed_append {first rest : List Reading} : FirstMissed (first ++ rest) ↔
    FirstMissed first ∨ (∀ reading ∈ first, reading.read) ∧ FirstMissed rest := by
  induction first with
  | nil => simp [FirstMissed]
  | cons reading first ih =>
      rw [List.cons_append, FirstMissed, FirstMissed, ih, List.forall_mem_cons, and_or_left,
        or_assoc, and_assoc]

namespace JsBackupRestore

variable {napi : NapiObjects} (documented : napi.Documented)

theorem written_bind {α : Type} (value : JsField) (f : JsField → NapiM α)
    (pending : Option BindingError) : (written (some value) >>= f) pending = f value pending := rfl

include documented

theorem property_read (value : JsField) :
    property napi value none = some (some (some value), none) := by
  rw [property, Option.isSome_none, documented.property]

theorem property_unread (value : JsField) (err : BindingError) :
    property napi value (some err) = some (some none, some err) := by
  rw [property, Option.isSome_some, documented.pending]

section Fields

variable {α β : Type} {value : JsField} {g : Option JsField → NapiM α} {f : α → NapiM β}

theorem field_gives {a : α} (h : Gives (g (some value)) a) :
    (property napi value >>= fun slot => g slot >>= f) none = f a none := by
  rw [NapiM.bind_of_eq (property_read documented value), NapiM.bind_of_eq h]

/-- After an exception the rest is undefined if it reads another field. -/
theorem field_taints (h : Taints (g (some value))) (stops : ∀ a err, f a (some err) = none) :
    (property napi value >>= fun slot => g slot >>= f) none = none := by
  obtain ⟨a, err, h⟩ := h
  rw [NapiM.bind_of_eq (property_read documented value), NapiM.bind_of_eq h, stops]

theorem property_settles (value : JsField) {f : Option JsField → NapiM β}
    (h : Settles (f (some value))) : Settles (property napi value >>= f) :=
  .of_eq (NapiM.bind_of_eq (property_read documented value)) h

/-- Under an exception the field is not written. -/
theorem field_stops (unwritten : ∀ pending, g none pending = none) (err : BindingError) :
    (property napi value >>= fun slot => g slot >>= f) (some err) = none := by
  rw [NapiM.bind_of_eq (property_unread documented value err)]
  change (g none (some err)).bind _ = none
  rw [unwritten]
  rfl

end Fields

omit documented in
theorem uint32_gives (value : JsField) :
    Gives (uint32 napi (some value)) ((napi.getValueUint32 value).getD 0) := rfl

section Enumeration

variable {α : Type} {parse : String → Option α} {invalid : α} {message : String}

theorem enumeration_gives {value : JsField} {a : α} (known : TextOf parse a value) :
    Gives (enumeration napi parse invalid message (some value)) a := by
  obtain ⟨text, rfl, known⟩ := known
  rw [Gives, enumeration, written_bind, documented.string, Option.getD_some, known]
  rfl

theorem enumeration_taints {value : JsField} (empty : parse "" = none)
    (unknown : ¬ Known parse value) :
    Taints (enumeration napi parse invalid message (some value)) := by
  refine ⟨invalid, .rangeError message, ?_⟩
  have none : parse ((napi.getValueString value).getD "") = none := by
    cases value with
    | string text =>
        rw [documented.string, Option.getD_some]
        by_contra some
        obtain ⟨a, known⟩ := Option.ne_none_iff_exists'.mp some
        exact unknown ⟨a, text, rfl, known⟩
    | _ =>
        rw [documented.not_string _ (fun text same => by cases same)]
        exact empty
  rw [enumeration, written_bind, none]
  rfl

end Enumeration

theorem bufferToVector_gives (bytes : Bytes) (label : String) :
    Gives (bufferToVector napi (some (.uint8Array bytes)) label) bytes := by
  rw [Gives, bufferToVector, written_bind,
    documented.buffer]
  rfl

theorem bufferToVector_not {value : JsField} (other : ∀ bytes, value ≠ .uint8Array bytes)
    (label : String) : bufferToVector napi (some value) label none =
      some (some [], some (.typeError (label ++ " must be a Buffer"))) := by
  rw [bufferToVector, written_bind,
    documented.not_buffer value other]
  rfl

/-- A buffer is not read from a value that is none: there is an exception then. -/
theorem bufferToVector_cases (value : JsField) (label : String) :
    (∃ bytes, value = .uint8Array bytes) ∨
      ∃ err, bufferToVector napi (some value) label none = some (some [], some err) := by
  by_cases bytes : ∃ bytes, value = .uint8Array bytes
  · exact .inl bytes
  · exact .inr ⟨_, bufferToVector_not documented (fun data same => bytes ⟨data, same⟩) label⟩

theorem keyId_gives {bytes : Bytes} (size : bytes.length = 32) :
    Gives (keyId napi (some (.uint8Array bytes))) ⟨⟨bytes.toArray, size⟩⟩ := by
  rw [Gives, keyId, NapiM.bind_of_eq (bufferToVector_gives documented bytes "keyId"),
    dif_pos size]
  rfl

theorem keyId_leaves {value : JsField} (bad : ¬ KeyIdRead value) :
    ∃ pending, keyId napi (some value) none = some (none, pending) := by
  obtain ⟨bytes, rfl⟩ | ⟨err, threw⟩ := bufferToVector_cases documented value "keyId"
  · have short : bytes.length ≠ 32 := fun size => bad ⟨bytes, rfl, size⟩
    rw [keyId, NapiM.bind_of_eq (bufferToVector_gives documented bytes "keyId"), dif_neg short]
    exact ⟨_, rfl⟩
  · rw [keyId, NapiM.bind_of_eq threw, dif_neg (by decide)]
    exact ⟨_, rfl⟩

theorem label_taints {value : JsField} (bad : ¬ LabelRead value) :
    Taints (label napi (some value)) := by
  obtain ⟨missing, null, other⟩ := not_or.mp bad |>.imp id not_or.mp
  obtain ⟨bytes, same⟩ | ⟨err, threw⟩ := bufferToVector_cases documented value "label"
  · exact absurd ⟨bytes, same⟩ other
  · refine ⟨[], err, ?_⟩
    cases value with
    | undefined => exact absurd rfl missing
    | null => exact absurd rfl null
    | _ => exact threw

theorem label_bytes (bytes : Bytes) : Gives (label napi (some (.uint8Array bytes))) bytes :=
  bufferToVector_gives documented bytes "label"

/-- The bytes of a label that is read. -/
theorem label_gives {value : JsField} (read : LabelRead value) :
    ∃ bytes, Gives (label napi (some value)) bytes := by
  obtain rfl | rfl | ⟨bytes, rfl⟩ := read
  · exact ⟨[], rfl⟩
  · exact ⟨[], rfl⟩
  · exact ⟨bytes, label_bytes documented bytes⟩

theorem blob_gives {bytes : Bytes} (filled : bytes ≠ []) :
    Gives (blob napi (some (.uint8Array bytes))) bytes := by
  rw [Gives, blob, NapiM.bind_of_eq (bufferToVector_gives documented bytes "blob"),
    if_neg filled]
  rfl

theorem blob_settles (value : JsField) : Settles (blob napi (some value)) := by
  obtain ⟨bytes, rfl⟩ | ⟨err, threw⟩ := bufferToVector_cases documented value "blob"
  · by_cases filled : bytes = []
    · right
      rw [blob, NapiM.bind_of_eq (bufferToVector_gives documented bytes "blob"), if_pos filled]
      exact ⟨_, rfl⟩
    · exact .inl ⟨bytes, blob_gives documented filled⟩
  · right
    rw [blob, NapiM.bind_of_eq threw, if_pos rfl]
    exact ⟨_, rfl⟩

theorem share_gives {bytes : Bytes} (filled : bytes ≠ []) :
    Gives (share napi (.uint8Array bytes)) (.bytes bytes) := by
  rw [Gives, share, field_gives documented (bufferToVector_gives documented bytes "share"),
    if_neg filled]
  rfl

theorem share_settles (value : JsField) : Settles (share napi value) := by
  obtain ⟨bytes, rfl⟩ | ⟨err, threw⟩ := bufferToVector_cases documented value "share"
  · by_cases filled : bytes = []
    · right
      rw [share, field_gives documented (bufferToVector_gives documented bytes "share"),
        if_pos filled]
      exact ⟨_, rfl⟩
    · exact .inl ⟨.bytes bytes, share_gives documented filled⟩
  · right
    rw [share, NapiM.bind_of_eq (property_read documented value), NapiM.bind_of_eq threw,
      if_pos rfl]
    exact ⟨_, rfl⟩

/-! ## The ciphertext -/

/-- What is left to read once the texts and the numbers are there. -/
theorem ciphertext_texts {object : JsCiphertext} {kind : ShareKind} {curve : Curve}
    {scheme : Scheme} (kindKnown : TextOf shareKind? kind object.kind)
    (curveKnown : TextOf curve? curve object.curve)
    (schemeKnown : TextOf scheme? scheme object.scheme) :
    ciphertext napi object none = (do
      let keyId ← keyId napi (← property napi object.keyId)
      let label ← label napi (← property napi object.label)
      let blob ← blob napi (← property napi object.blob)
      return { kind, curve, scheme, threshold := (napi.getValueUint32 object.threshold).getD 0,
               shareCount := (napi.getValueUint32 object.shareCount).getD 0, keyId,
               label := labelBuf label, ciphertext := .bytes blob : MaanyMpcBackupCiphertext })
        none := by
  rw [ciphertext, shareKindFromString, curveFromString, schemeFromString,
    field_gives documented (enumeration_gives documented kindKnown),
    field_gives documented (enumeration_gives documented curveKnown),
    field_gives documented (enumeration_gives documented schemeKnown),
    field_gives documented (uint32_gives object.threshold),
    field_gives documented (uint32_gives object.shareCount)]

/-- A text that is not known is followed by a look at a value that has not been read. -/
theorem ciphertext_unknown {object : JsCiphertext} (unknown : ¬ TextsKnown object) :
    ciphertext napi object none = none := by
  rw [ciphertext, shareKindFromString, curveFromString, schemeFromString]
  by_cases kindKnown : Known shareKind? object.kind
  · obtain ⟨kind, kindKnown'⟩ := kindKnown
    rw [field_gives documented (enumeration_gives documented kindKnown')]
    by_cases curveKnown : Known curve? object.curve
    · obtain ⟨curve, curveKnown'⟩ := curveKnown
      rw [field_gives documented (enumeration_gives documented curveKnown')]
      refine field_taints documented (enumeration_taints documented (by decide)
        fun schemeKnown => unknown ⟨⟨kind, kindKnown'⟩, ⟨curve, curveKnown'⟩, schemeKnown⟩) ?_
      exact fun _ err => field_stops documented (fun _ => rfl) err
    · refine field_taints documented (enumeration_taints documented (by decide) curveKnown) ?_
      exact fun _ err => field_stops documented (fun _ => rfl) err
  · refine field_taints documented (enumeration_taints documented (by decide) kindKnown) ?_
    exact fun _ err => field_stops documented (fun _ => rfl) err

theorem ciphertext_missed {object : JsCiphertext} (known : TextsKnown object)
    (missed : LabelMissed object) : ciphertext napi object none = none := by
  obtain ⟨⟨kind, kindKnown⟩, ⟨curve, curveKnown⟩, scheme, schemeKnown⟩ := known
  obtain ⟨⟨bytes, same, size⟩, labelMissed⟩ := missed
  rw [ciphertext_texts documented kindKnown curveKnown schemeKnown, same,
    field_gives documented (keyId_gives documented size)]
  exact field_taints documented (label_taints documented labelMissed)
    fun _ err => field_stops documented (fun _ => rfl) err

theorem ciphertext_settles {object : JsCiphertext} (known : TextsKnown object)
    (read : ¬ LabelMissed object) : Settles (ciphertext napi object) := by
  obtain ⟨⟨kind, kindKnown⟩, ⟨curve, curveKnown⟩, scheme, schemeKnown⟩ := known
  apply Settles.of_eq (ciphertext_texts documented kindKnown curveKnown schemeKnown)
  apply property_settles documented
  by_cases keyIdRead : KeyIdRead object.keyId
  · obtain ⟨bytes, same, size⟩ := keyIdRead
    have labelRead : LabelRead object.label :=
      not_not.mp fun missed => read ⟨⟨bytes, same, size⟩, missed⟩
    rw [same]
    refine Settles.bind (.inl ⟨_, keyId_gives documented size⟩) fun keyId => ?_
    apply property_settles documented
    refine Settles.bind (.inl (label_gives documented labelRead)) fun label => ?_
    apply property_settles documented
    exact (blob_settles documented object.blob).bind fun blob => .pure _
  · obtain ⟨pending, left⟩ := keyId_leaves documented keyIdRead
    exact .inr ⟨pending, NapiM.bind_of_left left⟩

theorem shares_settle (shares : List JsField) : Settles (shares.mapM (share napi)) := by
  induction shares with
  | nil => exact .pure []
  | cons value shares ih =>
      rw [List.mapM_cons]
      exact (share_settles documented value).bind fun buf => ih.bind fun bufs => .pure _

theorem call_settles (ciphertext : MaanyMpcBackupCiphertext) (shares : Option (List JsField)) :
    Settles (call napi ciphertext shares) := by
  cases shares with
  | none => exact .inr ⟨_, rfl⟩
  | some shares =>
      rw [call]
      split_ifs with few
      · exact .inr ⟨_, rfl⟩
      · exact (shares_settle documented shares).bind fun bufs => .pure _

omit documented in
theorem read_object (object : JsCiphertext) (shares : Option (List JsField)) :
    read napi ⟨some object, shares⟩ =
      ciphertext napi object >>= fun ciphertext => call napi ciphertext shares := rfl

/-- What `JsBackupRestore` does with a backup is undefined if and only if a text of its ciphertext
is not known or the label is missed. -/
theorem read_undefined_iff (backup : JsBackup) :
    read napi backup none = none ↔
      ∃ object, backup.ciphertext = some object ∧
        (¬ TextsKnown object ∨ LabelMissed object) := by
  obtain ⟨_ | object, shares⟩ := backup
  · exact iff_of_false (Option.some_ne_none _) fun ⟨_, same, _⟩ => by cases same
  · have stops (undefined : ciphertext napi object none = none) :
        read napi ⟨some object, shares⟩ none = none := by
      rw [read_object]
      change (ciphertext napi object none).bind _ = none
      rw [undefined]
      rfl
    by_cases known : TextsKnown object
    · by_cases missed : LabelMissed object
      · exact iff_of_true (stops (ciphertext_missed documented known missed))
          ⟨object, rfl, .inr missed⟩
      · refine iff_of_false ?_ ?_
        · exact ((ciphertext_settles documented known missed).bind
            fun ciphertext => call_settles documented ciphertext shares).ne_none
        · rintro ⟨_, same, bad⟩
          cases same
          exact bad.elim (fun unknown => unknown known) missed
    · exact iff_of_true (stops (ciphertext_unknown documented known)) ⟨object, rfl, .inl known⟩

end JsBackupRestore

namespace BackupRestore

theorem bind_undefined {α β : Type} {m : JsiM α} {f : α → JsiM β} :
    (m >>= f).run = none ↔ m.run = none ∨ ∃ a, m.run = some (.ok a) ∧ (f a).run = none := by
  change (m.run.bind _) = none ↔ _
  obtain _ | _ | a := m.run
  · exact iff_of_true rfl (.inl rfl)
  · exact iff_of_false (Option.some_ne_none _) fun h => by
      obtain h | ⟨a, h, _⟩ := h <;> cases h
  · constructor
    · exact fun undefined => .inr ⟨a, rfl, undefined⟩
    · rintro (h | ⟨_, h, undefined⟩) <;> cases h
      exact undefined

theorem bind_ok_iff {α β : Type} {m : JsiM α} {f : α → JsiM β} {b : β} :
    (m >>= f).run = some (.ok b) ↔ ∃ a, m.run = some (.ok a) ∧ (f a).run = some (.ok b) := by
  change (m.run.bind _) = _ ↔ _
  obtain _ | _ | a := m.run
  · exact iff_of_false (by rintro ⟨⟩) (by rintro ⟨_, ⟨⟩, _⟩)
  · exact iff_of_false (by rintro ⟨⟩) (by rintro ⟨_, ⟨⟩, _⟩)
  · constructor
    · exact fun ok => ⟨a, rfl, ok⟩
    · rintro ⟨_, h, ok⟩
      cases h
      exact ok

/-- The host object goes on if everything is read, and it is undefined if the first thing that is
not read is missed. -/
structure Follows {α : Type} (m : JsiM α) (readings : List Reading) : Prop where
  ok_iff : (∃ a, m.run = some (.ok a)) ↔ ∀ reading ∈ readings, reading.read
  undefined_iff : m.run = none ↔ FirstMissed readings

section Follows

variable {α β : Type} {m : JsiM α} {f : α → JsiM β} {first rest : List Reading}

theorem Follows.pure (a : α) : Follows (pure a : JsiM α) [] :=
  ⟨iff_of_true ⟨a, rfl⟩ (by simp), iff_of_false (Option.some_ne_none _) id⟩

theorem Follows.throw (err : BindingError) : Follows (throw err : JsiM α) [⟨False, False⟩] :=
  ⟨iff_of_false (by rintro ⟨a, same⟩; cases same) (by simp),
    iff_of_false (Option.some_ne_none _) (by simp [FirstMissed])⟩

theorem Follows.bind (h : Follows m first)
    (h' : ∀ a, m.run = some (.ok a) → Follows (f a) rest) : Follows (m >>= f) (first ++ rest) := by
  constructor
  · simp only [bind_ok_iff, List.forall_mem_append, ← h.ok_iff]
    constructor
    · rintro ⟨b, a, ok, next⟩
      exact ⟨⟨a, ok⟩, (h' a ok).ok_iff.mp ⟨b, next⟩⟩
    · rintro ⟨⟨a, ok⟩, all⟩
      obtain ⟨b, next⟩ := (h' a ok).ok_iff.mpr all
      exact ⟨b, a, ok, next⟩
  · rw [bind_undefined, firstMissed_append, ← h.undefined_iff, ← h.ok_iff]
    refine or_congr_right ?_
    constructor
    · rintro ⟨a, ok, undefined⟩
      exact ⟨⟨a, ok⟩, (h' a ok).undefined_iff.mp undefined⟩
    · rintro ⟨⟨a, ok⟩, missed⟩
      exact ⟨a, ok, (h' a ok).undefined_iff.mpr missed⟩

end Follows

section Enumeration

variable {α : Type} {parse : String → Option α} {label unsupported : String} {value : JsField}

theorem enumeration_known {a : α} (known : TextOf parse a value) :
    (enumeration parse label unsupported value).run = some (.ok a) := by
  obtain ⟨text, rfl, known⟩ := known
  rw [enumeration, requireString, pure_bind, known]
  rfl

theorem enumeration_unknown (unknown : ¬ Known parse value) :
    ∃ err, (enumeration parse label unsupported value).run = some (.error err) := by
  cases value with
  | string text =>
      cases known : parse text with
      | none =>
          rw [enumeration, requireString, pure_bind, known]
          exact ⟨_, rfl⟩
      | some a => exact absurd ⟨a, text, rfl, known⟩ unknown
  | _ => exact ⟨_, rfl⟩

end Enumeration

section Fields

theorem read_object (jsi : JsiObjects) (object : JsCiphertext) (shares : Option (List JsField)) :
    read jsi ⟨some object, shares⟩ =
      ciphertext jsi object >>= fun ciphertext => call jsi ciphertext shares := rfl

end Fields

end BackupRestore

/-! ## Both bindings -/

/-- Numbers wrap. -/
def sampleNapiObjects : NapiObjects where
  getProperty pending value := if pending then none else some value
  getValueString
    | .string text => some text
    | _ => none
  getValueUint32
    | .number n => some (UInt32.ofNat (n % 2 ^ 32).toNat)
    | _ => none
  getBuffer
    | .uint8Array bytes => some bytes
    | _ => none

theorem sampleNapiObjects_documented : sampleNapiObjects.Documented where
  property _ := rfl
  pending _ := rfl
  string _ := rfl
  not_string value other := by
    cases value with
    | string text => exact absurd rfl (other text)
    | _ => rfl
  uint32 n := by
    have small : (n.toNat : ℤ) % 2 ^ 32 = n.toNat :=
      Int.emod_eq_of_lt (by omega) (by exact_mod_cast n.toNat_lt)
    change some (UInt32.ofNat ((n.toNat : ℤ) % 2 ^ 32).toNat) = some n
    rw [small, Int.toNat_natCast, UInt32.ofNat_toNat]
  not_number value other := by
    cases value with
    | number n => exact absurd rfl (other n)
    | _ => rfl
  buffer _ := rfl
  not_buffer value other := by
    cases value with
    | uint8Array bytes => exact absurd rfl (other bytes)
    | _ => rfl

def sampleJsiObjects : JsiObjects where
  getProperty value := value

theorem sampleJsiObjects_documented : sampleJsiObjects.Documented where
  property _ := rfl

end MaanyMpc
