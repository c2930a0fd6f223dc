import MaanyMpc.Coordinator.RnBase64
import MaanyMpc.Coordinator.Storage
import MaanyMpc.Library.Transition

/-! # The share storages of coordinator-rn

`InMemoryShareStorage`, and `SecureShareStorage` down to the preferences and the keystore of
Android. The second one is as good as the first as long as no two keyIds in use have the same
sanitized name and no share is empty. -/

namespace MaanyMpc

variable {Key : Type}

/-! ## The platform -/

/-- AES-GCM with the keys of the keystore; `draw` is the randomness of a call. -/
structure KeystoreCipher (Key : Type) where
  generateKey : (draw : ℕ) → Key
  /-- the initialization vector, and the ciphertext with the tag at its end -/
  encrypt : Key → (draw : ℕ) → (value : Bytes) → Vector UInt8 12 × Bytes
  decrypt : Key → (iv encrypted : Bytes) → Option Bytes

/-- What was encrypted decrypts under the same key, and the tag has 128 bits. -/
structure KeystoreCipher.Lawful (cipher : KeystoreCipher Key) : Prop where
  decrypt : ∀ key draw value, cipher.decrypt key (cipher.encrypt key draw value).1.toList
    (cipher.encrypt key draw value).2 = some value
  length : ∀ key draw value, (cipher.encrypt key draw value).2.length = value.length + 16

/-- `android.util.Base64` with the flags that are used here. -/
structure AndroidBase64 where
  /-- `none` for an `IllegalArgumentException` -/
  decode : String → Option Bytes
  encodeToString : Bytes → String

structure AndroidBase64.Lawful (android : AndroidBase64) : Prop where
  encodeToString : ∀ bytes, android.encodeToString bytes = Base64.encode bytes
  decode : ∀ bytes, android.decode (Base64.encode bytes) = some bytes

/-! ## The native module -/

def ivLength : ℕ := 12

structure SecureShareStorageModule (Key : Type) where
  preferences : String → Option String
  keystore : String → Option Key

def aliasFor (keyId : String) : String := "maany_mpc_share_" ++ sanitizeKey keyId

theorem prefKey_eq_iff {a b : String} : prefKey a = prefKey b ↔ sanitizeKey a = sanitizeKey b :=
  String.append_right_inj _

theorem aliasFor_eq_iff {a b : String} : aliasFor a = aliasFor b ↔ sanitizeKey a = sanitizeKey b :=
  String.append_right_inj _

namespace SecureShareStorageModule

def new : SecureShareStorageModule Key where
  preferences _ := none
  keystore _ := none

def getOrCreateKey (cipher : KeystoreCipher Key) (m : SecureShareStorageModule Key) (draw : ℕ)
    (keyAlias : String) : Key × SecureShareStorageModule Key :=
  match m.keystore keyAlias with
  | some key => (key, m)
  | none =>
    let key := cipher.generateKey draw
    (key, { m with keystore := Function.update m.keystore keyAlias (some key) })

def saveShare (android : AndroidBase64) (cipher : KeystoreCipher Key)
    (m : SecureShareStorageModule Key) (draw : ℕ) (keyId base64 : String) :
    Except String (SecureShareStorageModule Key) :=
  match android.decode base64 with
  | none => .error "ERR_SAVE_SHARE"
  | some value =>
    let (key, m) := m.getOrCreateKey cipher draw (aliasFor keyId)
    let (iv, ciphertext) := cipher.encrypt key draw value
    let encoded := android.encodeToString (iv.toList ++ ciphertext)
    .ok { m with preferences := Function.update m.preferences (prefKey keyId) (some encoded) }

/-- With an activity at hand, no other request under way, and an authentication that succeeds. -/
def loadShare (android : AndroidBase64) (cipher : KeystoreCipher Key)
    (m : SecureShareStorageModule Key) (keyId : String) : Except String (Option String) :=
  match m.preferences (prefKey keyId) with
  | none => .ok none
  | some stored =>
    match m.keystore (aliasFor keyId) with
    | none => .ok none
    | some key =>
      match android.decode stored with
      | none => .error "IllegalArgumentException"
      | some payload =>
        if payload.length < ivLength + 1 then .error "ERR_INVALID_PAYLOAD"
        else
          match cipher.decrypt key (payload.take ivLength) (payload.drop ivLength) with
          | none => .error "ERR_DECRYPT"
          | some decrypted => .ok (some (android.encodeToString decrypted))

def removeShare (m : SecureShareStorageModule Key) (keyId : String) :
    SecureShareStorageModule Key where
  preferences := Function.update m.preferences (prefKey keyId) none
  keystore := Function.update m.keystore (aliasFor keyId) none

end SecureShareStorageModule

/-! ## The two storages -/

inductive ShareOp where
  | save (record : ShareRecord)
  | load (keyId : String)
  | remove (keyId : String)

inductive ShareReply where
  | done
  | loaded (record : Option ShareRecord)
  | rejected (reason : String)
  deriving DecidableEq

structure InMemoryShareStorage where
  state : String → Option Bytes

namespace InMemoryShareStorage

def new : InMemoryShareStorage := ⟨fun _ => none⟩

def apply (s : InMemoryShareStorage) : ShareOp → ShareReply × InMemoryShareStorage
  | .save record => (.done, ⟨Function.update s.state record.keyId (some record.blob)⟩)
  | .load keyId => (.loaded ((s.state keyId).map fun blob => ⟨keyId, blob⟩), s)
  | .remove keyId => (.done, ⟨Function.update s.state keyId none⟩)

end InMemoryShareStorage

namespace SecureShareStorage

/-- `load`, on what the native module resolves to. -/
def shareOf (keyId : String) : Option String → ShareReply
  | none => .loaded none
  | some base64 =>
    if base64 = "" then .loaded none
    else
      match fromBase64 base64 with
      | .ok blob => .loaded (some ⟨keyId, blob⟩)
      | .error (.error message) => .rejected message
      | .error .typeError => .rejected "TypeError"

def apply (android : AndroidBase64) (cipher : KeystoreCipher Key)
    (m : SecureShareStorageModule Key) (draw : ℕ) :
    ShareOp → ShareReply × SecureShareStorageModule Key
  | .save record =>
    match m.saveShare android cipher draw record.keyId (toBase64 record.blob) with
    | .ok m => (.done, m)
    | .error code => (.rejected code, m)
  | .load keyId =>
    match m.loadShare android cipher keyId with
    | .ok base64 => (shareOf keyId base64, m)
    | .error code => (.rejected code, m)
  | .remove keyId => (.done, m.removeShare keyId)

end SecureShareStorage

structure ShareStorages (Key : Type) where
  memory : InMemoryShareStorage
  secure : SecureShareStorageModule Key

/-- What the two storages answer to one call. -/
structure ShareReplies where
  memory : ShareReply
  secure : ShareReply
  deriving DecidableEq

/-- Both storages get the same calls. -/
def shareStorages (android : AndroidBase64) (cipher : KeystoreCipher Key) :
    Transition.Machine (ShareStorages Key) (ShareOp × ℕ) ShareReplies where
  init := ⟨.new, .new⟩
  step s call :=
    let memory := s.memory.apply call.1
    let secure := SecureShareStorage.apply android cipher s.secure call.2 call.1
    some (⟨memory.2, secure.2⟩, [⟨memory.1, secure.1⟩])

theorem shareStorages_step (android : AndroidBase64) (cipher : KeystoreCipher Key)
    (s : ShareStorages Key) (op : ShareOp) (draw : ℕ) :
    (shareStorages android cipher).step s (op, draw) =
      some (⟨(s.memory.apply op).2, (SecureShareStorage.apply android cipher s.secure draw op).2⟩,
        [⟨(s.memory.apply op).1, (SecureShareStorage.apply android cipher s.secure draw op).1⟩]) :=
  rfl

/-! ## Slots -/

section Slots

variable {android : AndroidBase64} {cipher : KeystoreCipher Key}
  {m m' : SecureShareStorageModule Key} {draw : ℕ}

namespace SecureShareStorageModule

/-- A load sees the slots of its name and nothing else. -/
theorem loadShare_congr {keyId : String}
    (preferences : m'.preferences (prefKey keyId) = m.preferences (prefKey keyId))
    (keystore : m'.keystore (aliasFor keyId) = m.keystore (aliasFor keyId)) :
    m'.loadShare android cipher keyId = m.loadShare android cipher keyId := by
  rw [loadShare, loadShare, preferences, keystore]

theorem getOrCreateKey_spec (cipher : KeystoreCipher Key) (m : SecureShareStorageModule Key)
    (draw : ℕ) (keyAlias : String) :
    (m.getOrCreateKey cipher draw keyAlias).2.keystore =
        Function.update m.keystore keyAlias (some (m.getOrCreateKey cipher draw keyAlias).1) ∧
      (m.getOrCreateKey cipher draw keyAlias).2.preferences = m.preferences := by
  cases known : m.keystore keyAlias with
  | none => simp [getOrCreateKey, known]
  | some key =>
      simp only [getOrCreateKey, known, and_true]
      rw [← known, Function.update_eq_self]

/-- A save fills the two slots of its name, with a key and with what the key encrypts. -/
theorem saveShare_ok (hand : android.Lawful) (cipher : KeystoreCipher Key)
    (m : SecureShareStorageModule Key) (draw : ℕ) (keyId : String) (blob : Bytes) :
    ∃ key m', m.saveShare android cipher draw keyId (Base64.encode blob) = .ok m' ∧
      m'.keystore = Function.update m.keystore (aliasFor keyId) (some key) ∧
      m'.preferences = Function.update m.preferences (prefKey keyId)
        (some (Base64.encode ((cipher.encrypt key draw blob).1.toList ++
          (cipher.encrypt key draw blob).2))) := by
  obtain ⟨keystore, preferences⟩ := getOrCreateKey_spec cipher m draw (aliasFor keyId)
  let key := (m.getOrCreateKey cipher draw (aliasFor keyId)).1
  let encoded := Base64.encode ((cipher.encrypt key draw blob).1.toList ++
    (cipher.encrypt key draw blob).2)
  refine ⟨key, { (m.getOrCreateKey cipher draw (aliasFor keyId)).2 with
                 preferences := Function.update m.preferences (prefKey keyId) (some encoded) },
    ?_, keystore, rfl⟩
  simp only [saveShare, hand.decode, hand.encodeToString, preferences]
  rfl

/-- What a key of the keystore has encrypted is read back. -/
theorem loadShare_encrypted (hand : android.Lawful) (hcipher : cipher.Lawful) {keyId : String}
    (key : Key) (draw : ℕ) {blob : Bytes} (keystore : m.keystore (aliasFor keyId) = some key)
    (preferences : m.preferences (prefKey keyId) =
      some (Base64.encode ((cipher.encrypt key draw blob).1.toList ++
        (cipher.encrypt key draw blob).2))) :
    m.loadShare android cipher keyId = .ok (some (Base64.encode blob)) := by
  have iv : (cipher.encrypt key draw blob).1.toList.length = ivLength := Vector.length_toList
  have long : ¬ ((cipher.encrypt key draw blob).1.toList ++
      (cipher.encrypt key draw blob).2).length < ivLength + 1 := by
    rw [List.length_append, iv, hcipher.length]
    omega
  simp only [loadShare, preferences, keystore, hand.decode, if_neg long, List.take_left' iv,
    List.drop_left' iv, hcipher.decrypt, hand.encodeToString]

/-- A save is read back under every keyId whose name is sanitized to the same. -/
theorem loadShare_save (hand : android.Lawful) (hcipher : cipher.Lawful) {keyId other : String}
    {blob : Bytes} (saved : m.saveShare android cipher draw keyId (Base64.encode blob) = .ok m')
    (same : sanitizeKey other = sanitizeKey keyId) :
    m'.loadShare android cipher other = .ok (some (Base64.encode blob)) := by
  obtain ⟨key, m'', saved', keystore, preferences⟩ :=
    saveShare_ok hand cipher m draw keyId blob
  obtain rfl := Except.ok.inj (saved.symm.trans saved')
  refine loadShare_encrypted hand hcipher key draw ?_ ?_
  · rw [aliasFor_eq_iff.mpr same, keystore, Function.update_self]
  · rw [prefKey_eq_iff.mpr same, preferences, Function.update_self]

/-- A save does not reach the slots of other names. -/
theorem loadShare_save_of_ne (hand : android.Lawful) {keyId other : String} {blob : Bytes}
    (saved : m.saveShare android cipher draw keyId (Base64.encode blob) = .ok m')
    (apart : sanitizeKey other ≠ sanitizeKey keyId) :
    m'.loadShare android cipher other = m.loadShare android cipher other := by
  obtain ⟨key, m'', saved', keystore, preferences⟩ :=
    saveShare_ok hand cipher m draw keyId blob
  obtain rfl := Except.ok.inj (saved.symm.trans saved')
  refine loadShare_congr ?_ ?_
  · rw [preferences, Function.update_of_ne (mt prefKey_eq_iff.mp apart)]
  · rw [keystore, Function.update_of_ne (mt aliasFor_eq_iff.mp apart)]

theorem loadShare_remove {keyId other : String} (same : sanitizeKey other = sanitizeKey keyId) :
    (m.removeShare keyId).loadShare android cipher other = .ok none := by
  have empty : (m.removeShare keyId).preferences (prefKey other) = none := by
    rw [prefKey_eq_iff.mpr same]
    exact Function.update_self ..
  simp only [loadShare, empty]

theorem loadShare_remove_of_ne {keyId other : String}
    (apart : sanitizeKey other ≠ sanitizeKey keyId) :
    (m.removeShare keyId).loadShare android cipher other = m.loadShare android cipher other := by
  refine loadShare_congr ?_ ?_
  · exact Function.update_of_ne (mt prefKey_eq_iff.mp apart) ..
  · exact Function.update_of_ne (mt aliasFor_eq_iff.mp apart) ..

end SecureShareStorageModule

theorem SecureShareStorage.apply_save (hand : android.Lawful) (cipher : KeystoreCipher Key)
    (m : SecureShareStorageModule Key) (draw : ℕ) (record : ShareRecord) :
    ∃ m', SecureShareStorage.apply android cipher m draw (.save record) = (.done, m') ∧
      m.saveShare android cipher draw record.keyId (Base64.encode record.blob) = .ok m' := by
  obtain ⟨key, m', saved, _⟩ :=
    SecureShareStorageModule.saveShare_ok hand cipher m draw record.keyId record.blob
  refine ⟨m', ?_, saved⟩
  simp only [SecureShareStorage.apply, toBase64_eq_encode, saved]

end Slots

/-! ## The condition -/

/-- Nothing is stored under another keyId with the same sanitized name. -/
def OwnName (s : ShareStorages Key) (keyId : String) : Prop :=
  ∀ other, other ≠ keyId → sanitizeKey other = sanitizeKey keyId → s.memory.state other = none

/-- The call is for a keyId with a name of its own, and loads no empty share. -/
def Distinguished (s : ShareStorages Key) : ShareOp × ℕ → Prop
  | (.save record, _) => OwnName s record.keyId
  | (.load keyId, _) => OwnName s keyId ∧ s.memory.state keyId ≠ some []
  | (.remove keyId, _) => OwnName s keyId

/-- A keyId with a name of its own finds in the native module what is stored in memory. -/
def Reflects (android : AndroidBase64) (cipher : KeystoreCipher Key) (s : ShareStorages Key) :
    Prop :=
  ∀ keyId, OwnName s keyId → s.secure.loadShare android cipher keyId =
    .ok ((s.memory.state keyId).map Base64.encode)

section Step

variable {android : AndroidBase64} {cipher : KeystoreCipher Key} {s : ShareStorages Key}

theorem reflects_init (android : AndroidBase64) (cipher : KeystoreCipher Key) :
    Reflects android cipher ⟨.new, .new⟩ :=
  fun _ _ => rfl

/-- Under a name of its own every share but the empty one comes back. -/
theorem shareOf_encode (keyId : String) {blob : Option Bytes} (nonempty : blob ≠ some []) :
    SecureShareStorage.shareOf keyId (blob.map Base64.encode) =
      .loaded (blob.map fun blob => ⟨keyId, blob⟩) := by
  cases blob with
  | none => rfl
  | some blob =>
      have text : Base64.encode blob ≠ "" := by
        intro empty
        exact nonempty (congrArg some (Base64.encode_injective empty))
      simp [SecureShareStorage.shareOf, text, fromBase64_encode]

theorem SecureShareStorage.apply_load {m : SecureShareStorageModule Key} (draw : ℕ)
    {keyId : String} {blob : Option Bytes} (nonempty : blob ≠ some [])
    (found : m.loadShare android cipher keyId = .ok (blob.map Base64.encode)) :
    SecureShareStorage.apply android cipher m draw (.load keyId) =
      (.loaded (blob.map fun blob => ⟨keyId, blob⟩), m) := by
  simp only [SecureShareStorage.apply, found, shareOf_encode keyId nonempty]

/-- A name that the call leaves alone keeps its slots, and loses no rival. -/
theorem OwnName.of_ne {s' : ShareStorages Key} {keyId other : String}
    (apart : sanitizeKey other ≠ sanitizeKey keyId)
    (frame : ∀ k, k ≠ keyId → s'.memory.state k = s.memory.state k) (own : OwnName s' other) :
    OwnName s other := by
  intro k ne same
  have foreign : k ≠ keyId := by
    rintro rfl
    exact apart same.symm
  rw [← frame k foreign]
  exact own k ne same

theorem Reflects.save (hand : android.Lawful) (hcipher : cipher.Lawful)
    (reflects : Reflects android cipher s) {record : ShareRecord} {draw : ℕ}
    {m' : SecureShareStorageModule Key} (saved : s.secure.saveShare android cipher draw
      record.keyId (Base64.encode record.blob) = .ok m') :
    Reflects android cipher
      ⟨⟨Function.update s.memory.state record.keyId (some record.blob)⟩, m'⟩ := by
  intro keyId own
  by_cases same : keyId = record.keyId
  · subst same
    simp only [Function.update_self, Option.map_some]
    exact SecureShareStorageModule.loadShare_save hand hcipher saved rfl
  · have apart : sanitizeKey keyId ≠ sanitizeKey record.keyId := by
      intro equal
      have stored := own record.keyId (Ne.symm same) equal.symm
      simp at stored
    have own' : OwnName s keyId :=
      own.of_ne apart fun k ne => Function.update_of_ne ne ..
    rw [SecureShareStorageModule.loadShare_save_of_ne hand saved apart, reflects keyId own']
    simp only [Function.update_of_ne same]

theorem Reflects.remove (reflects : Reflects android cipher s) {removed : String}
    (own : OwnName s removed) :
    Reflects android cipher
      ⟨⟨Function.update s.memory.state removed none⟩, s.secure.removeShare removed⟩ := by
  intro keyId own'
  by_cases same : sanitizeKey keyId = sanitizeKey removed
  · have empty : Function.update s.memory.state removed none keyId = none := by
      by_cases equal : keyId = removed
      · rw [equal, Function.update_self]
      · rw [Function.update_of_ne equal, own keyId equal same]
    simp only [empty, Option.map_none]
    exact SecureShareStorageModule.loadShare_remove same
  · have ne : keyId ≠ removed := fun equal => same (congrArg sanitizeKey equal)
    have own'' : OwnName s keyId :=
      own'.of_ne same fun k ne => Function.update_of_ne ne ..
    rw [SecureShareStorageModule.loadShare_remove_of_ne same, reflects keyId own'']
    simp only [Function.update_of_ne ne]

/-- A call that meets the condition gets the same reply from both storages. -/
theorem Reflects.step (hand : android.Lawful) (hcipher : cipher.Lawful)
    (reflects : Reflects android cipher s) {call : ShareOp × ℕ} (ok : Distinguished s call)
    {s' : ShareStorages Key} {replies : List ShareReplies}
    (hstep : (shareStorages android cipher).step s call = some (s', replies)) :
    Reflects android cipher s' ∧ ∀ r ∈ replies, r.memory = r.secure := by
  obtain ⟨op, draw⟩ := call
  simp only [shareStorages, Option.some.injEq, Prod.mk.injEq] at hstep
  obtain ⟨rfl, rfl⟩ := hstep
  rw [List.forall_mem_singleton]
  cases op with
  | save record =>
      obtain ⟨m', applied, saved⟩ := SecureShareStorage.apply_save hand cipher s.secure draw record
      simp only [applied, InMemoryShareStorage.apply]
      exact ⟨reflects.save hand hcipher saved, trivial⟩
  | load keyId =>
      obtain ⟨own, nonempty⟩ := ok
      rw [SecureShareStorage.apply_load draw nonempty (reflects keyId own)]
      exact ⟨reflects, rfl⟩
  | remove keyId =>
      simp only [SecureShareStorage.apply, InMemoryShareStorage.apply]
      exact ⟨reflects.remove ok, trivial⟩

end Step

/-! ## Runs -/

/-- Over every sequence of calls that meet the condition the secure storage answers like the
one in memory. -/
theorem secure_storage_refines {android : AndroidBase64} {cipher : KeystoreCipher Key}
    (hand : android.Lawful) (hcipher : cipher.Lawful)
    {taken : List (ShareStorages Key × (ShareOp × ℕ))} {replies : List ShareReplies}
    {s : ShareStorages Key} (run : (shareStorages android cipher).Run taken replies s)
    (meets : Transition.Machine.Meets Distinguished taken) :
    ∀ r ∈ replies, r.memory = r.secure := by
  refine run.guarded_events Distinguished (Reflects android cipher)
    (fun r => r.memory = r.secure) (reflects_init android cipher) ?_ meets
  intro s call s' emitted reflects ok hstep
  exact reflects.step hand hcipher ok hstep

/-! ## Two keyIds with one name -/

/-- A cipher that shows the text, with a tag that shows the key. -/
def sampleKeystoreCipher : KeystoreCipher ℕ where
  generateKey draw := draw
  encrypt key _ value := (Vector.replicate 12 0, value ++ List.replicate 16 (.ofNat key))
  decrypt key _ encrypted :=
    if encrypted.drop (encrypted.length - 16) = List.replicate 16 (.ofNat key) then
      some (encrypted.take (encrypted.length - 16))
    else none

def sampleAndroid : AndroidBase64 where
  decode text := some (Base64.decode text)
  encodeToString := Base64.encode

theorem sampleKeystoreCipher_lawful : sampleKeystoreCipher.Lawful where
  decrypt key draw value := by simp [sampleKeystoreCipher]
  length key draw value := by simp [sampleKeystoreCipher]

theorem sampleAndroid_lawful : sampleAndroid.Lawful where
  encodeToString _ := rfl
  decode bytes := congrArg some (Base64.decode_encode bytes)

/-- The share of `a.b` is overwritten by a save for `a_b`. -/
theorem sanitized_names_collide :
    ¬ ∀ taken replies s, (shareStorages sampleAndroid sampleKeystoreCipher).Run taken replies s →
      ∀ r ∈ replies, r.memory = r.secure := by
  intro agree
  obtain ⟨m, first, _⟩ := SecureShareStorage.apply_save sampleAndroid_lawful
    sampleKeystoreCipher .new 5 ⟨"a.b", [1]⟩
  obtain ⟨m', second, saved⟩ := SecureShareStorage.apply_save sampleAndroid_lawful
    sampleKeystoreCipher m 6 ⟨"a_b", [2]⟩
  have same : sanitizeKey "a.b" = sanitizeKey "a_b" := by
    apply String.toList_injective
    rw [sanitizeKey, sanitizeKey, String.toList_map, String.toList_map]
    decide
  have found := SecureShareStorageModule.loadShare_save sampleAndroid_lawful
    sampleKeystoreCipher_lawful saved same
  have loaded := SecureShareStorage.apply_load 7
    (show some ([2] : Bytes) ≠ some [] by decide) found
  let stored := Function.update (fun _ => none) "a.b" (some ([1] : Bytes))
  let both := Function.update stored "a_b" (some [2])
  have one : (shareStorages sampleAndroid sampleKeystoreCipher).step ⟨.new, .new⟩
      (.save ⟨"a.b", [1]⟩, 5) = some (⟨⟨stored⟩, m⟩, [⟨.done, .done⟩]) := by
    rw [shareStorages_step, first]
    rfl
  have two : (shareStorages sampleAndroid sampleKeystoreCipher).step ⟨⟨stored⟩, m⟩
      (.save ⟨"a_b", [2]⟩, 6) = some (⟨⟨both⟩, m'⟩, [⟨.done, .done⟩]) := by
    rw [shareStorages_step, second]
    rfl
  have three : (shareStorages sampleAndroid sampleKeystoreCipher).step ⟨⟨both⟩, m'⟩
      (.load "a.b", 7) = some (⟨⟨both⟩, m'⟩,
        [⟨.loaded (some ⟨"a.b", [1]⟩), .loaded (some ⟨"a.b", [2]⟩)⟩]) := by
    rw [shareStorages_step, loaded]
    simp [InMemoryShareStorage.apply, both, stored]
  have run := ((Transition.Machine.Run.start.next one).next two).next three
  have reply := agree _ _ _ run _ (List.mem_append_right _ (List.mem_singleton_self _))
  simp at reply

/-- A share that is saved and loaded. -/
theorem secure_storage_refines_loaded :
    (SecureShareStorage.apply sampleAndroid sampleKeystoreCipher
      (SecureShareStorage.apply sampleAndroid sampleKeystoreCipher .new 5
        (.save ⟨"a.b", [1, 2]⟩)).2 6 (.load "a.b")).1 = .loaded (some ⟨"a.b", [1, 2]⟩) := by
  have saved := (Transition.Machine.Run.start
    (M := shareStorages sampleAndroid sampleKeystoreCipher)).next
    (show (shareStorages sampleAndroid sampleKeystoreCipher).step _
      (.save ⟨"a.b", [1, 2]⟩, 5) = some _ from rfl)
  have loaded := saved.next (show (shareStorages sampleAndroid sampleKeystoreCipher).step _
    (.load "a.b", 6) = some _ from rfl)
  have own : ∀ other, other ≠ "a.b" →
      Function.update (fun _ => none) "a.b" (some [1, 2]) other = (none : Option Bytes) :=
    fun other ne => Function.update_of_ne ne ..
  have agree := secure_storage_refines sampleAndroid_lawful sampleKeystoreCipher_lawful loaded
    ((Transition.Machine.meets_append_singleton ..).mpr
      ⟨(Transition.Machine.meets_append_singleton ..).mpr
        ⟨Transition.Machine.meets_nil _, fun _ _ _ => rfl⟩, fun other ne _ => own other ne,
        by simp [shareStorages, InMemoryShareStorage.apply]⟩)
  exact (agree _ (List.mem_append_right _ (List.mem_singleton_self _))).symm

end MaanyMpc
