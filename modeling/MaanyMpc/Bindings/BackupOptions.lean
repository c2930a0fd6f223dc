import MaanyMpc.Bridge.Types

/-! # The options of backupCreate

The Node addon and the React Native host object both take an object of options apart and call
`maany_mpc_backup_create` with what they find. -/

namespace MaanyMpc

/-! ## Values of JavaScript -/

/-- The values that are told apart. A number has no fraction. -/
inductive JsValue where
  | undefined
  | null
  | number (n : ℤ)
  | uint8Array (bytes : Bytes)
  | arrayBuffer (bytes : Bytes)
  | other

/-- The properties that an object has. -/
abbrev JsProperties := String → Option JsValue

inductive JsArgument where
  | undefined
  | null
  | object (properties : JsProperties)
  /-- A function is an object too, though not to `napi_typeof`. -/
  | function (properties : JsProperties)
  | other

inductive BindingError where
  | typeError (message : String)
  | rangeError (message : String)
  /-- thrown by `asNumber`, or by a vector of too many bytes -/
  | raised

/-- What `maany_mpc_backup_create` is called with. -/
structure BackupCall where
  threshold : UInt32
  shareCount : ℕ
  label : Option Bytes

/-- `static_cast<uint32_t>` of a number in range. -/
def toUint32 (n : ℤ) : UInt32 := UInt32.ofNat n.toNat

/-- The pointer to a label is null if the label is empty. -/
def labelPointer (label : Bytes) : Option Bytes := if label = [] then none else some label

/-! ## The Node addon -/

/-- What the addon calls of N-API. `none` stands for a status other than `napi_ok`, which leaves
the output as it is. -/
structure Napi where
  getNamedProperty : JsProperties → String → Option JsValue
  getValueDouble : JsValue → Option ℤ
  /-- `napi_is_buffer` and `napi_get_buffer_info` -/
  getBuffer : JsValue → Option Bytes

/-- A property that is missing is read as undefined; a number is read from a number and bytes from
a buffer, and from nothing else. -/
structure Napi.Documented (napi : Napi) : Prop where
  property : ∀ properties name,
    napi.getNamedProperty properties name = some ((properties name).getD .undefined)
  number : ∀ n, napi.getValueDouble (.number n) = some n
  not_number : ∀ value, (∀ n, value ≠ .number n) → napi.getValueDouble value = none
  buffer : ∀ bytes, napi.getBuffer (.uint8Array bytes) = some bytes
  not_buffer : ∀ value, (∀ bytes, value ≠ .uint8Array bytes) → napi.getBuffer value = none

namespace JsBackupCreate

variable (napi : Napi)

/-- `temp` is zero if there is no number. -/
def number (value : JsValue) (message : String) : Except BindingError ℤ :=
  let temp := (napi.getValueDouble value).getD 0
  if temp < 1 then .error (.rangeError message) else .ok temp

def threshold (opts : JsProperties) : Except BindingError UInt32 :=
  match napi.getNamedProperty opts "threshold" with
  | some value => (number napi value "threshold must be >= 1").map toUint32
  | none => .ok 2

def shareCount (opts : JsProperties) : Except BindingError ℕ :=
  match napi.getNamedProperty opts "shareCount" <|> napi.getNamedProperty opts "shares" with
  | some value => (number napi value "shareCount must be >= 1").map Int.toNat
  | none => .ok 3

/-- The bytes, and an exception that is pending from then on. -/
def bufferToVector (value : JsValue) (label : String) : Bytes × Option BindingError :=
  match napi.getBuffer value with
  | some bytes => (bytes, none)
  | none => ([], some (.typeError (label ++ " must be a Buffer")))

def label (opts : JsProperties) : Bytes × Option BindingError :=
  match napi.getNamedProperty opts "label" with
  | none | some .undefined | some .null => ([], none)
  | some value => bufferToVector napi value "label"

/-- The call, with the exception that it is made under. -/
def call (threshold : UInt32) (shareCount : ℕ) (label : Bytes × Option BindingError) :
    Except BindingError (BackupCall × Option BindingError) :=
  if shareCount < threshold.toNat then .error (.rangeError "shareCount must be >= threshold")
  else .ok (⟨threshold, shareCount, labelPointer label.1⟩, label.2)

def run (options : Option JsArgument) : Except BindingError (BackupCall × Option BindingError) :=
  match options with
  | none | some .undefined | some .null => call 2 3 ([], none)
  | some .other | some (.function _) => .error (.typeError "options must be an object")
  | some (.object opts) => do
    let threshold ← threshold napi opts
    let shareCount ← shareCount napi opts
    call threshold shareCount (label napi opts)

end JsBackupCreate

/-! ## The React Native host object -/

/-- What the host object calls of JSI to look into an object. -/
structure Jsi where
  hasProperty : JsProperties → String → Bool
  getProperty : JsProperties → String → JsValue

structure Jsi.Documented (jsi : Jsi) : Prop where
  hasProperty : ∀ properties name, jsi.hasProperty properties name = (properties name).isSome
  getProperty : ∀ properties name,
    jsi.getProperty properties name = (properties name).getD .undefined

namespace BackupCreate

variable (jsi : Jsi)

def getOptionalProperty (source : JsProperties) (name : String) : Option JsValue :=
  if jsi.hasProperty source name then
    match jsi.getProperty source name with
    | .undefined | .null => none
    | value => some value
  else none

def number (value : JsValue) (name : String) : Except BindingError ℤ :=
  match value with
  | .number n => .ok n
  | _ => .error (.typeError (name ++ " must be a number"))

def threshold (opts : JsProperties) : Except BindingError UInt32 :=
  match getOptionalProperty jsi opts "threshold" with
  | some value => (number value "threshold").map toUint32
  | none => .ok 2

def shareCount (opts : JsProperties) : Except BindingError ℕ :=
  match getOptionalProperty jsi opts "shareCount" with
  | some value => (number value "shareCount").map Int.toNat
  | none =>
    match getOptionalProperty jsi opts "shares" with
    | some value => (number value "shares").map Int.toNat
    | none => .ok 3

/-- `toByteVector`. An object that is neither has no `buffer` here. -/
def toByteVector (value : JsValue) (label : String) : Except BindingError Bytes :=
  match value with
  | .uint8Array bytes | .arrayBuffer bytes => .ok bytes
  | _ => .error (.typeError (label ++ " must be a Uint8Array or ArrayBuffer"))

def label (opts : JsProperties) : Except BindingError Bytes :=
  match getOptionalProperty jsi opts "label" with
  | some value => toByteVector value "label"
  | none => .ok []

def call (threshold : UInt32) (shareCount : ℕ) (label : Bytes) : Except BindingError BackupCall :=
  if shareCount < threshold.toNat then .error (.typeError "shareCount must be >= threshold")
  else .ok ⟨threshold, shareCount, labelPointer label⟩

def run (options : Option JsArgument) : Except BindingError BackupCall :=
  match options with
  | none | some .undefined | some .null => call 2 3 []
  | some .other => .error (.typeError "options must be an object")
  | some (.object opts) | some (.function opts) => do
    let threshold ← threshold jsi opts
    let shareCount ← shareCount jsi opts
    let label ← label jsi opts
    call threshold shareCount label

end BackupCreate

/-! ## What is asked for -/

def Absent (property : Option JsValue) : Prop :=
  property = none ∨ property = some .undefined ∨ property = some .null

/-- The options of the interface: numbers that an `int` holds, and bytes. -/
structure Proper (opts : JsProperties) : Prop where
  number : ∀ name ∈ ["threshold", "shareCount", "shares"], Absent (opts name) ∨
    ∃ n, opts name = some (.number n) ∧ 1 ≤ n ∧ n < 2 ^ 31
  label : Absent (opts "label") ∨
    ∃ bytes, opts "label" = some (.uint8Array bytes) ∨ opts "label" = some (.arrayBuffer bytes)

def givenNumber (opts : JsProperties) (name : String) : Option ℤ :=
  match opts name with
  | some (.number n) => some n
  | _ => none

def wantedThreshold (opts : JsProperties) : ℤ := (givenNumber opts "threshold").getD 2

def wantedCount (opts : JsProperties) : ℤ :=
  (givenNumber opts "shareCount" <|> givenNumber opts "shares").getD 3

def wantedLabel (opts : JsProperties) : Bytes :=
  match opts "label" with
  | some (.uint8Array bytes) | some (.arrayBuffer bytes) => bytes
  | _ => []

/-- The call that the options ask for. -/
def wantedCall : Option JsArgument → BackupCall
  | some (.object opts) | some (.function opts) =>
    ⟨toUint32 (wantedThreshold opts), (wantedCount opts).toNat, labelPointer (wantedLabel opts)⟩
  | _ => ⟨2, 3, none⟩

/-- Both reject, or both make the call that the options ask for. -/
def ReadAlike (napi : Napi) (jsi : Jsi) (options : Option JsArgument) : Prop :=
  (∃ err err', JsBackupCreate.run napi options = .error err ∧
    BackupCreate.run jsi options = .error err') ∨
  (JsBackupCreate.run napi options = .ok (wantedCall options, none) ∧
    BackupCreate.run jsi options = .ok (wantedCall options))

/-! ## What the addon reads -/

theorem Absent.givenNumber {opts : JsProperties} {name : String} (absent : Absent (opts name)) :
    givenNumber opts name = none := by
  unfold MaanyMpc.givenNumber
  obtain absent | absent | absent := absent <;> rw [absent]

theorem givenNumber_of_eq {opts : JsProperties} {name : String} {n : ℤ}
    (present : opts name = some (.number n)) : givenNumber opts name = some n := by
  rw [givenNumber, present]

section Napi

variable {napi : Napi} (documented : napi.Documented) {opts : JsProperties}

include documented

namespace JsBackupCreate

theorem number_absent {name : String} (absent : Absent (opts name)) (message : String) :
    number napi ((opts name).getD .undefined) message = .error (.rangeError message) := by
  have none : napi.getValueDouble ((opts name).getD .undefined) = none := by
    obtain absent | absent | absent := absent <;> rw [absent] <;>
      exact documented.not_number _ (by intro n same; cases same)
  rw [number, none]
  rfl

theorem number_present {name : String} {n : ℤ} (present : opts name = some (.number n))
    (positive : 1 ≤ n) (message : String) :
    number napi ((opts name).getD .undefined) message = .ok n := by
  rw [number, present, Option.getD_some, documented.number]
  exact if_neg (Int.not_lt.mpr positive)

theorem threshold_eq (opts : JsProperties) : threshold napi opts =
    (number napi ((opts "threshold").getD .undefined) "threshold must be >= 1").map toUint32 := by
  rw [threshold, documented.property]

/-- The alias is not looked at. -/
theorem shareCount_eq (opts : JsProperties) : shareCount napi opts =
    (number napi ((opts "shareCount").getD .undefined) "shareCount must be >= 1").map
      Int.toNat := by
  rw [shareCount, documented.property]
  rfl

/-- Without a threshold or a count the addon rejects. -/
theorem run_absent (proper : Proper opts)
    (absent : Absent (opts "threshold") ∨ Absent (opts "shareCount")) :
    ∃ err, run napi (some (.object opts)) = .error err := by
  obtain none | ⟨n, present, positive, _⟩ := proper.number "threshold" (by simp)
  · refine ⟨.rangeError "threshold must be >= 1", ?_⟩
    rw [run, threshold_eq documented, number_absent documented none]
    rfl
  · obtain some | none := absent
    · obtain absent | absent | absent := some <;> simp [absent] at present
    · refine ⟨.rangeError "shareCount must be >= 1", ?_⟩
      rw [run, threshold_eq documented, number_present documented present positive,
        shareCount_eq documented, number_absent documented none]
      rfl

/-- With both of them it makes the call that is asked for, or finds the count too low. -/
theorem run_present (proper : Proper opts) (hthreshold : ¬ Absent (opts "threshold"))
    (hcount : ¬ Absent (opts "shareCount")) : run napi (some (.object opts)) =
      call (toUint32 (wantedThreshold opts)) (wantedCount opts).toNat (label napi opts) := by
  obtain ⟨threshold, threshold_given, threshold_pos, _⟩ :=
    (proper.number "threshold" (by simp)).resolve_left hthreshold
  obtain ⟨count, count_given, count_pos, _⟩ :=
    (proper.number "shareCount" (by simp)).resolve_left hcount
  rw [run, threshold_eq documented, number_present documented threshold_given threshold_pos,
    shareCount_eq documented, number_present documented count_given count_pos, wantedThreshold,
    wantedCount, givenNumber_of_eq threshold_given, givenNumber_of_eq count_given]
  rfl

theorem label_eq (proper : Proper opts)
    (readable : ∀ bytes, opts "label" ≠ some (.arrayBuffer bytes)) :
    label napi opts = (wantedLabel opts, none) := by
  rw [label, wantedLabel, documented.property]
  obtain absent | ⟨bytes, present | present⟩ := proper.label
  · obtain absent | absent | absent := absent <;> rw [absent] <;> rfl
  · rw [present]
    change bufferToVector napi (.uint8Array bytes) "label" = (bytes, none)
    rw [bufferToVector, documented.buffer]
  · exact absurd present (readable bytes)

/-- An `ArrayBuffer` is no buffer to the addon. -/
theorem label_pending {bytes : Bytes} (present : opts "label" = some (.arrayBuffer bytes)) :
    (label napi opts).2 ≠ none := by
  have none : napi.getBuffer (.arrayBuffer bytes) = none :=
    documented.not_buffer _ (by intro bytes same; cases same)
  rw [label, documented.property, present]
  change (bufferToVector napi (.arrayBuffer bytes) "label").2 ≠ _
  rw [bufferToVector, none]
  exact Option.some_ne_none _

end JsBackupCreate

end Napi

/-! ## What the host object reads -/

section Jsi

variable {jsi : Jsi} (documented : jsi.Documented) {opts : JsProperties}

include documented

namespace BackupCreate

theorem getOptionalProperty_absent {name : String} (absent : Absent (opts name)) :
    getOptionalProperty jsi opts name = none := by
  rw [getOptionalProperty, documented.hasProperty, documented.getProperty]
  obtain absent | absent | absent := absent <;> rw [absent] <;> rfl

theorem getOptionalProperty_number {name : String} {n : ℤ}
    (present : opts name = some (.number n)) :
    getOptionalProperty jsi opts name = some (.number n) := by
  rw [getOptionalProperty, documented.hasProperty, documented.getProperty, present]
  rfl

theorem threshold_eq (proper : Proper opts) :
    threshold jsi opts = .ok (toUint32 (wantedThreshold opts)) := by
  rw [threshold, wantedThreshold]
  obtain absent | ⟨n, present, _⟩ := proper.number "threshold" (by simp)
  · rw [getOptionalProperty_absent documented absent, absent.givenNumber]
    rfl
  · rw [getOptionalProperty_number documented present, givenNumber_of_eq present]
    rfl

theorem shareCount_eq (proper : Proper opts) :
    shareCount jsi opts = .ok (wantedCount opts).toNat := by
  rw [shareCount, wantedCount]
  obtain absent | ⟨n, present, _⟩ := proper.number "shareCount" (by simp)
  · rw [getOptionalProperty_absent documented absent, absent.givenNumber]
    obtain absent | ⟨n, present, _⟩ := proper.number "shares" (by simp)
    · rw [getOptionalProperty_absent documented absent, absent.givenNumber]
      rfl
    · rw [getOptionalProperty_number documented present, givenNumber_of_eq present]
      rfl
  · rw [getOptionalProperty_number documented present, givenNumber_of_eq present]
    rfl

theorem label_eq (proper : Proper opts) : label jsi opts = .ok (wantedLabel opts) := by
  rw [label, wantedLabel]
  obtain absent | ⟨bytes, present | present⟩ := proper.label
  · rw [getOptionalProperty_absent documented absent]
    obtain absent | absent | absent := absent <;> rw [absent]
  · rw [getOptionalProperty, documented.hasProperty, documented.getProperty, present]
    rfl
  · rw [getOptionalProperty, documented.hasProperty, documented.getProperty, present]
    rfl

/-- The host object makes the call that is asked for, or finds the count too low. -/
theorem run_eq (proper : Proper opts) : run jsi (some (.object opts)) =
    call (toUint32 (wantedThreshold opts)) (wantedCount opts).toNat (wantedLabel opts) := by
  rw [run, threshold_eq documented proper, shareCount_eq documented proper,
    label_eq documented proper]
  rfl

end BackupCreate

end Jsi

/-! ## Reading alike -/

theorem toUint32_toNat {n : ℤ} (small : n < 2 ^ 31) : (toUint32 n).toNat = n.toNat := by
  refine UInt32.toNat_ofNat_of_lt' ?_
  have bound : (2 : ℕ) ^ 31 < UInt32.size := by decide
  omega

theorem Proper.given {opts : JsProperties} (proper : Proper opts) {name : String}
    (field : name ∈ ["threshold", "shareCount", "shares"]) : givenNumber opts name = none ∨
      ∃ n, givenNumber opts name = some n ∧ 1 ≤ n ∧ n < 2 ^ 31 := by
  obtain absent | ⟨n, present, range⟩ := proper.number name field
  · exact .inl absent.givenNumber
  · exact .inr ⟨n, givenNumber_of_eq present, range⟩

theorem Proper.threshold_range {opts : JsProperties} (proper : Proper opts) :
    1 ≤ wantedThreshold opts ∧ wantedThreshold opts < 2 ^ 31 := by
  unfold wantedThreshold
  obtain absent | ⟨n, present, range⟩ := proper.given (show "threshold" ∈ _ by simp)
  · rw [absent]
    decide
  · rw [present]
    exact range

/-- The count is compared as it was given. -/
theorem Proper.few_iff {opts : JsProperties} (proper : Proper opts) :
    (wantedCount opts).toNat < (toUint32 (wantedThreshold opts)).toNat ↔
      wantedCount opts < wantedThreshold opts := by
  obtain ⟨positive, small⟩ := proper.threshold_range
  rw [toUint32_toNat small]
  omega

section Bindings

variable {napi : Napi} (node : napi.Documented) {jsi : Jsi} (native : jsi.Documented)

include node native

theorem readAlike_of_few {opts : JsProperties} (proper : Proper opts)
    (few : wantedCount opts < wantedThreshold opts) : ReadAlike napi jsi (some (.object opts)) := by
  have called := BackupCreate.run_eq native proper
  rw [BackupCreate.call, if_pos (proper.few_iff.mpr few)] at called
  by_cases absent : Absent (opts "threshold") ∨ Absent (opts "shareCount")
  · obtain ⟨err, rejected⟩ := JsBackupCreate.run_absent node proper absent
    exact .inl ⟨err, _, rejected, called⟩
  · rw [not_or] at absent
    have made := JsBackupCreate.run_present node proper absent.1 absent.2
    rw [JsBackupCreate.call, if_pos (proper.few_iff.mpr few)] at made
    exact .inl ⟨_, _, made, called⟩

theorem not_readAlike_of_absent {opts : JsProperties} (proper : Proper opts)
    (enough : ¬ wantedCount opts < wantedThreshold opts)
    (absent : Absent (opts "threshold") ∨ Absent (opts "shareCount")) :
    ¬ ReadAlike napi jsi (some (.object opts)) := by
  obtain ⟨err, rejected⟩ := JsBackupCreate.run_absent node proper absent
  have called := BackupCreate.run_eq native proper
  rw [BackupCreate.call, if_neg (mt proper.few_iff.mp enough)] at called
  rintro (⟨_, err', _, rejected'⟩ | ⟨made, _⟩)
  · rw [called] at rejected'
    cases rejected'
  · rw [rejected] at made
    cases made

theorem readAlike_iff_of_present {opts : JsProperties} (proper : Proper opts)
    (enough : ¬ wantedCount opts < wantedThreshold opts)
    (hthreshold : ¬ Absent (opts "threshold")) (hcount : ¬ Absent (opts "shareCount")) :
    ReadAlike napi jsi (some (.object opts)) ↔
      ∀ bytes, opts "label" ≠ some (.arrayBuffer bytes) := by
  have called := BackupCreate.run_eq native proper
  have made := JsBackupCreate.run_present node proper hthreshold hcount
  rw [BackupCreate.call, if_neg (mt proper.few_iff.mp enough)] at called
  rw [JsBackupCreate.call, if_neg (mt proper.few_iff.mp enough)] at made
  constructor
  · rintro (⟨_, _, rejected, _⟩ | ⟨same, _⟩) bytes present
    · rw [made] at rejected
      cases rejected
    · rw [made] at same
      exact JsBackupCreate.label_pending node present (congrArg Prod.snd (Except.ok.inj same))
  · intro readable
    rw [JsBackupCreate.label_eq node proper readable] at made
    exact .inr ⟨made, called⟩

end Bindings

/-- The addon takes no function for options. -/
theorem readAlike_function_iff {napi : Napi} {jsi : Jsi} (native : jsi.Documented)
    {opts : JsProperties} (proper : Proper opts) :
    ReadAlike napi jsi (some (.function opts)) ↔ wantedCount opts < wantedThreshold opts := by
  have called : BackupCreate.run jsi (some (.function opts)) = _ :=
    BackupCreate.run_eq native proper
  by_cases few : wantedCount opts < wantedThreshold opts
  · rw [BackupCreate.call, if_pos (proper.few_iff.mpr few)] at called
    exact iff_of_true (.inl ⟨_, _, rfl, called⟩) few
  · rw [BackupCreate.call, if_neg (mt proper.few_iff.mp few)] at called
    refine iff_of_false ?_ few
    rintro (⟨_, err', _, rejected⟩ | ⟨made, _⟩)
    · rw [called] at rejected
      cases rejected
    · cases made

/-- The bindings read an object of options alike if and only if both numbers are given under their
own names and the label is no `ArrayBuffer`, or the count is lower than the threshold; and a
function only in the last case. -/
theorem options_alike_iff {napi : Napi} (node : napi.Documented) {jsi : Jsi}
    (native : jsi.Documented) (options : Option JsArgument)
    (proper : ∀ opts, options = some (.object opts) ∨ options = some (.function opts) →
      Proper opts) :
    ReadAlike napi jsi options ↔
      (∀ opts, options = some (.object opts) →
        (¬ Absent (opts "threshold") ∧ ¬ Absent (opts "shareCount") ∧
          ∀ bytes, opts "label" ≠ some (.arrayBuffer bytes)) ∨
        wantedCount opts < wantedThreshold opts) ∧
      ∀ opts, options = some (.function opts) → wantedCount opts < wantedThreshold opts := by
  obtain _ | _ | _ | opts | opts | _ := options
  · exact iff_of_true (.inr ⟨rfl, rfl⟩) (by simp)
  · exact iff_of_true (.inr ⟨rfl, rfl⟩) (by simp)
  · exact iff_of_true (.inr ⟨rfl, rfl⟩) (by simp)
  · have proper := proper opts (.inl rfl)
    simp only [Option.some.injEq, JsArgument.object.injEq, forall_eq', reduceCtorEq, false_implies,
      implies_true, and_true]
    by_cases few : wantedCount opts < wantedThreshold opts
    · exact iff_of_true (readAlike_of_few node native proper few) (.inr few)
    · rw [or_iff_left few]
      by_cases absent : Absent (opts "threshold") ∨ Absent (opts "shareCount")
      · refine iff_of_false (not_readAlike_of_absent node native proper few absent) ?_
        rintro ⟨hthreshold, hcount, _⟩
        exact absent.elim hthreshold hcount
      · rw [not_or] at absent
        rw [readAlike_iff_of_present node native proper few absent.1 absent.2,
          and_iff_right absent.1, and_iff_right absent.2]
  · simp only [Option.some.injEq, JsArgument.function.injEq, forall_eq', reduceCtorEq,
      false_implies, implies_true, true_and]
    exact readAlike_function_iff native (proper opts (.inr rfl))
  · exact iff_of_true (.inl ⟨_, _, rfl, rfl⟩) (by simp)

/-! ## Two of three, and no options -/

def sampleNapi : Napi where
  getNamedProperty opts name := some ((opts name).getD .undefined)
  getValueDouble
    | .number n => some n
    | _ => none
  getBuffer
    | .uint8Array bytes => some bytes
    | _ => none

theorem sampleNapi_documented : sampleNapi.Documented where
  property _ _ := rfl
  number _ := rfl
  not_number value other := by
    cases value with
    | number n => exact absurd rfl (other n)
    | _ => rfl
  buffer _ := rfl
  not_buffer value other := by
    cases value with
    | uint8Array bytes => exact absurd rfl (other bytes)
    | _ => rfl

def sampleJsi : Jsi where
  hasProperty opts name := (opts name).isSome
  getProperty opts name := (opts name).getD .undefined

theorem sampleJsi_documented : sampleJsi.Documented where
  hasProperty _ _ := rfl
  getProperty _ _ := rfl

def twoOfThree : JsProperties
  | "threshold" => some (.number 2)
  | "shareCount" => some (.number 3)
  | "label" => some (.uint8Array [1])
  | _ => none

theorem twoOfThree_proper : Proper twoOfThree where
  number name field := by
    simp only [List.mem_cons, List.not_mem_nil, or_false] at field
    obtain rfl | rfl | rfl := field
    · exact .inr ⟨2, rfl, by decide⟩
    · exact .inr ⟨3, rfl, by decide⟩
    · exact .inl (.inl rfl)
  label := .inr ⟨[1], .inl rfl⟩

theorem options_alike_two_of_three :
    ReadAlike sampleNapi sampleJsi (some (.object twoOfThree)) := by
  refine (options_alike_iff sampleNapi_documented sampleJsi_documented _ ?_).mpr ?_
  · intro opts given
    obtain same | same := given
    · cases same
      exact twoOfThree_proper
    · cases same
  · refine ⟨?_, fun _ same => by cases same⟩
    rintro _ ⟨rfl⟩
    exact .inl ⟨by simp [Absent, twoOfThree], by simp [Absent, twoOfThree], by simp [twoOfThree]⟩

/-- An object without properties. -/
theorem empty_options_differ : ¬ ∀ (napi : Napi) (jsi : Jsi) (opts : JsProperties),
    napi.Documented → jsi.Documented → Proper opts →
      ReadAlike napi jsi (some (.object opts)) := by
  intro alike
  have proper : Proper fun _ => none := ⟨fun _ _ => .inl (.inl rfl), .inl (.inl rfl)⟩
  exact not_readAlike_of_absent sampleNapi_documented sampleJsi_documented proper (by decide)
    (.inl (.inl rfl)) (alike _ _ _ sampleNapi_documented sampleJsi_documented proper)

end MaanyMpc
