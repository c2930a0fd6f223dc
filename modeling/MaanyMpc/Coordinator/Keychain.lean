import MaanyMpc.Coordinator.SecureStorage

/-! # Shares in the keychain

`SecureShareStorage` down to the keychain of iOS. A save deletes what was there before it adds the
share, so one that fails can lose what an earlier one has stored. -/

namespace MaanyMpc

open Transition

/-! ## The native module -/

/-- `NSData` from and to base64, without options. -/
structure FoundationBase64 where
  initWithBase64EncodedString : String → Option Bytes
  base64EncodedString : Bytes → String

structure FoundationBase64.Lawful (foundation : FoundationBase64) : Prop where
  encode : ∀ bytes, foundation.base64EncodedString bytes = Base64.encode bytes
  decode : ∀ bytes, foundation.initWithBase64EncodedString (Base64.encode bytes) = some bytes

/-- The generic passwords of `kMaanyService`, by their accounts. -/
structure MaanyMpcSecureStorage where
  items : String → Option Bytes

/-- What works of the keychain during a call: `SecItemDelete`, `SecAccessControlCreateWithFlags` at
the first or the second attempt, `SecItemAdd` and `SecItemCopyMatching`. -/
structure KeychainConditions where
  deletes : Bool
  access : Bool
  adds : Bool
  copies : Bool

namespace MaanyMpcSecureStorage

def new : MaanyMpcSecureStorage := ⟨fun _ => none⟩

/-- An item that is not there is deleted without one. -/
def delete (m : MaanyMpcSecureStorage) (works : KeychainConditions) (keyId : String) :
    MaanyMpcSecureStorage :=
  if works.deletes then ⟨Function.update m.items keyId none⟩ else m

/-- The status of the deletion is not looked at; an item that is still there is a duplicate. -/
def saveShare (foundation : FoundationBase64) (m : MaanyMpcSecureStorage)
    (works : KeychainConditions) (keyId base64 : String) :
    Except String Unit × MaanyMpcSecureStorage :=
  match foundation.initWithBase64EncodedString base64 with
  | none => (.error "ERR_INVALID_BASE64", m)
  | some value =>
    let m := m.delete works keyId
    if !works.access then (.error "ERR_ACCESS_CONTROL", m)
    else if (m.items keyId).isSome || !works.adds then (.error "ERR_SAVE_SHARE", m)
    else (.ok (), ⟨Function.update m.items keyId (some value)⟩)

def loadShare (foundation : FoundationBase64) (m : MaanyMpcSecureStorage)
    (works : KeychainConditions) (keyId : String) : Except String (Option String) :=
  if !works.copies then .error "ERR_LOAD_SHARE"
  else .ok ((m.items keyId).map foundation.base64EncodedString)

def removeShare (m : MaanyMpcSecureStorage) (works : KeychainConditions) (keyId : String) :
    Except String Unit × MaanyMpcSecureStorage :=
  if !works.deletes then (.error "ERR_REMOVE_SHARE", m) else (.ok (), m.delete works keyId)

end MaanyMpcSecureStorage

/-! ## The two storages -/

def doneOrRejected : Except String Unit → ShareReply
  | .ok () => .done
  | .error code => .rejected code

/-- `SecureShareStorage` over the module. -/
def MaanyMpcSecureStorage.apply (foundation : FoundationBase64) (m : MaanyMpcSecureStorage)
    (works : KeychainConditions) : ShareOp → ShareReply × MaanyMpcSecureStorage
  | .save record =>
    let (saved, m) := m.saveShare foundation works record.keyId (toBase64 record.blob)
    (doneOrRejected saved, m)
  | .load keyId =>
    match m.loadShare foundation works keyId with
    | .ok base64 => (SecureShareStorage.shareOf keyId base64, m)
    | .error code => (.rejected code, m)
  | .remove keyId =>
    let (removed, m) := m.removeShare works keyId
    (doneOrRejected removed, m)

structure KeychainStorages where
  memory : InMemoryShareStorage
  keychain : MaanyMpcSecureStorage

/-- Both storages get the same calls. -/
def keychainStorages (foundation : FoundationBase64) :
    Machine KeychainStorages (ShareOp × KeychainConditions) ShareReplies where
  init := ⟨.new, .new⟩
  step s call :=
    let memory := s.memory.apply call.1
    let keychain := s.keychain.apply foundation call.2 call.1
    some (⟨memory.2, keychain.2⟩, [⟨memory.1, keychain.1⟩])

/-! ## The condition -/

/-- A save is resolved if its access control is made and its item added, which needs that the one
before is gone. -/
def SavesShare (m : MaanyMpcSecureStorage) (works : KeychainConditions) (keyId : String) : Prop :=
  (works.deletes = true ∨ m.items keyId = none) ∧ works.access = true ∧ works.adds = true

/-- What the call needs of the keychain works, and it loads no empty share. -/
def KeychainServes (s : KeychainStorages) : ShareOp × KeychainConditions → Prop
  | (.save record, works) => SavesShare s.keychain works record.keyId
  | (.load keyId, works) => works.copies = true ∧ s.keychain.items keyId ≠ some []
  | (.remove _, works) => works.deletes = true

/-- The keychain holds what is held in memory. -/
def SameItems (s : KeychainStorages) : Prop := s.keychain.items = s.memory.state

def Agree (replies : List ShareReplies) : Prop := ∀ r ∈ replies, r.memory = r.secure

/-! ## Calls -/

/-- The answer of the keychain to a recorded call. -/
def keychainReply (foundation : FoundationBase64)
    (p : KeychainStorages × ShareOp × KeychainConditions) : ShareReply :=
  (p.1.keychain.apply foundation p.2.2 p.2.1).1

def ShareReply.Rejects (reply : ShareReply) : Prop := ∃ code, reply = .rejected code

section Step

variable {foundation : FoundationBase64} {s s' : KeychainStorages}

/-- Every share is read as it is, but for an empty one, which counts as none. -/
theorem shareOf_items (keyId : String) (blob : Option Bytes) :
    SecureShareStorage.shareOf keyId (blob.map Base64.encode) =
      .loaded ((blob.filter (· ≠ [])).map fun blob => ⟨keyId, blob⟩) := by
  by_cases empty : blob = some []
  · subst empty
    rfl
  · rw [shareOf_encode keyId empty]
    cases blob with
    | none => rfl
    | some blob =>
        have nonempty : blob ≠ [] := fun same => empty (congrArg some same)
        simp [nonempty]

theorem not_rejects_done : ¬ ShareReply.done.Rejects := fun ⟨_, same⟩ => by cases same

theorem not_rejects_loaded (record : Option ShareRecord) : ¬ (ShareReply.loaded record).Rejects :=
  fun ⟨_, same⟩ => by cases same

namespace MaanyMpcSecureStorage

theorem delete_update (m : MaanyMpcSecureStorage) (works : KeychainConditions) (keyId : String)
    (value : Option Bytes) :
    Function.update (m.delete works keyId).items keyId value =
      Function.update m.items keyId value := by
  unfold delete
  split_ifs with deletes
  · exact Function.update_idem ..
  · rfl

theorem delete_eq_none_iff {m : MaanyMpcSecureStorage} {works : KeychainConditions}
    {keyId : String} :
    (m.delete works keyId).items keyId = none ↔ works.deletes = true ∨ m.items keyId = none := by
  by_cases deletes : works.deletes = true
  · simp [delete, deletes]
  · simp [delete, deletes]

/-- Nothing comes into the keychain with a deletion. -/
theorem items_of_delete {m : MaanyMpcSecureStorage} {works : KeychainConditions}
    {keyId other : String} {blob : Bytes}
    (h : (m.delete works keyId).items other = some blob) : m.items other = some blob := by
  unfold delete at h
  split_ifs at h with deletes
  · by_cases same : other = keyId
    · subst same
      simp at h
    · simpa only [Function.update_of_ne same] using h
  · exact h

theorem apply_save (hfoundation : foundation.Lawful) {m : MaanyMpcSecureStorage}
    {works : KeychainConditions} {record : ShareRecord} (saves : SavesShare m works record.keyId) :
    m.apply foundation works (.save record) =
      (.done, ⟨Function.update m.items record.keyId (some record.blob)⟩) := by
  obtain ⟨free, access, adds⟩ := saves
  have gone := delete_eq_none_iff.mpr free
  simp [apply, saveShare, toBase64_eq_encode, hfoundation.decode, access, adds, gone,
    delete_update, doneOrRejected]

theorem apply_save_of_not (hfoundation : foundation.Lawful) {m : MaanyMpcSecureStorage}
    {works : KeychainConditions} {record : ShareRecord}
    (fails : ¬ SavesShare m works record.keyId) :
    ∃ code, m.apply foundation works (.save record) =
      (.rejected code, m.delete works record.keyId) := by
  rw [SavesShare, ← delete_eq_none_iff] at fails
  simp only [apply, saveShare, toBase64_eq_encode, hfoundation.decode]
  cases access : works.access with
  | false => exact ⟨_, rfl⟩
  | true =>
      have duplicate : ((m.delete works record.keyId).items record.keyId).isSome ||
          !works.adds := by
        cases adds : works.adds with
        | false => simp
        | true =>
            have left : (m.delete works record.keyId).items record.keyId ≠ none :=
              fun gone => fails ⟨gone, access, adds⟩
            simpa [Option.isSome_iff_ne_none] using left
      exact ⟨"ERR_SAVE_SHARE", by simp [duplicate, doneOrRejected]⟩

theorem apply_load (hfoundation : foundation.Lawful) (m : MaanyMpcSecureStorage)
    (works : KeychainConditions) (keyId : String) :
    m.apply foundation works (.load keyId) =
      (if works.copies then
        .loaded (((m.items keyId).filter (· ≠ [])).map fun blob => ⟨keyId, blob⟩)
      else .rejected "ERR_LOAD_SHARE", m) := by
  have encodes : foundation.base64EncodedString = Base64.encode := funext hfoundation.encode
  cases copies : works.copies with
  | false => simp [apply, loadShare, copies]
  | true => simp [apply, loadShare, copies, encodes, shareOf_items]

theorem apply_remove (foundation : FoundationBase64) (m : MaanyMpcSecureStorage)
    (works : KeychainConditions) (keyId : String) :
    m.apply foundation works (.remove keyId) =
      if works.deletes then (.done, ⟨Function.update m.items keyId none⟩)
      else (.rejected "ERR_REMOVE_SHARE", m) := by
  by_cases deletes : works.deletes = true
  · simp [apply, removeShare, delete, deletes, doneOrRejected]
  · simp [apply, removeShare, deletes, doneOrRejected]

/-- What a call comes to: it does what the storage in memory does, or it is rejected and items
may be lost. -/
inductive Keeps (m : MaanyMpcSecureStorage) (op : ShareOp) :
    ShareReply × MaanyMpcSecureStorage → Prop where
  | resolved {reply} (answers : ¬ reply.Rejects) :
      Keeps m op (reply, ⟨((InMemoryShareStorage.mk m.items).apply op).2.state⟩)
  | rejected {code m'} (lost : ∀ keyId blob, m'.items keyId = some blob →
      m.items keyId = some blob) : Keeps m op (.rejected code, m')

/-- What a call leaves in the keychain. -/
theorem apply_keeps (hfoundation : foundation.Lawful) (m : MaanyMpcSecureStorage)
    (works : KeychainConditions) (op : ShareOp) : Keeps m op (m.apply foundation works op) := by
  cases op with
  | save record =>
      by_cases saves : SavesShare m works record.keyId
      · rw [apply_save hfoundation saves]
        exact .resolved not_rejects_done
      · obtain ⟨code, fails⟩ := apply_save_of_not hfoundation saves
        rw [fails]
        exact .rejected fun keyId blob => items_of_delete
  | load keyId =>
      rw [apply_load hfoundation]
      split_ifs with copies
      · exact .resolved (not_rejects_loaded _)
      · exact .rejected fun _ _ => id
  | remove keyId =>
      rw [apply_remove]
      split_ifs with deletes
      · exact .resolved not_rejects_done
      · exact .rejected fun _ _ => id

end MaanyMpcSecureStorage

/-- A call that is served gets the same answer from both storages, and no other call does. -/
theorem SameItems.step (hfoundation : foundation.Lawful) (same : SameItems s)
    {call : ShareOp × KeychainConditions} {replies : List ShareReplies}
    (hstep : (keychainStorages foundation).step s call = some (s', replies)) :
    (Agree replies ↔ KeychainServes s call) ∧ (KeychainServes s call → SameItems s') := by
  obtain ⟨memory, keychain⟩ := s
  obtain ⟨op, works⟩ := call
  simp only [keychainStorages, Option.some.injEq, Prod.mk.injEq] at hstep
  obtain ⟨rfl, rfl⟩ := hstep
  simp only [SameItems] at same
  rw [Agree, List.forall_mem_singleton]
  cases op with
  | save record =>
      by_cases saves : SavesShare keychain works record.keyId
      · rw [MaanyMpcSecureStorage.apply_save hfoundation saves]
        simp [InMemoryShareStorage.apply, KeychainServes, saves, SameItems, same]
      · obtain ⟨code, fails⟩ := MaanyMpcSecureStorage.apply_save_of_not hfoundation saves
        simp [fails, InMemoryShareStorage.apply, KeychainServes, saves]
  | load keyId =>
      rw [MaanyMpcSecureStorage.apply_load hfoundation]
      cases copies : works.copies with
      | false => simp [InMemoryShareStorage.apply, KeychainServes, copies]
      | true =>
          have answers : (memory.state keyId).map (fun blob => ShareRecord.mk keyId blob) =
              ((memory.state keyId).filter (· ≠ [])).map (fun blob => ShareRecord.mk keyId blob) ↔
                memory.state keyId ≠ some [] := by
            cases memory.state keyId with
            | none => simp
            | some blob =>
                by_cases empty : blob = []
                · simp [empty]
                · simp [empty]
          simpa [InMemoryShareStorage.apply, KeychainServes, copies, SameItems, same] using answers
  | remove keyId =>
      rw [MaanyMpcSecureStorage.apply_remove]
      cases deletes : works.deletes with
      | false => simp [InMemoryShareStorage.apply, KeychainServes, deletes]
      | true => simp [InMemoryShareStorage.apply, KeychainServes, deletes, SameItems, same]

end Step

/-! ## Runs -/

section Runs

variable {foundation : FoundationBase64}
  {taken : List (KeychainStorages × ShareOp × KeychainConditions)}
  {replies : List ShareReplies} {s : KeychainStorages}

theorem agree_append (first second : List ShareReplies) :
    Agree (first ++ second) ↔ Agree first ∧ Agree second :=
  List.forall_mem_append

/-- Over a sequence of calls the keychain answers like the storage in memory if and only if it
serves every one of them. -/
theorem keychain_agrees_iff (hfoundation : foundation.Lawful)
    (run : (keychainStorages foundation).Run taken replies s) :
    Agree replies ↔ Machine.Meets KeychainServes taken := by
  have both : (Agree replies ↔ Machine.Meets KeychainServes taken) ∧
      (Machine.Meets KeychainServes taken → SameItems s) := by
    refine run.history_invariant (fun taken replies s =>
      (Agree replies ↔ Machine.Meets KeychainServes taken) ∧
        (Machine.Meets KeychainServes taken → SameItems s)) ?_ ?_
    · exact ⟨by simp [Agree], fun _ => rfl⟩
    · rintro taken replies s call s' emitted _ ⟨agree, same⟩ hstep
      rw [agree_append, Machine.meets_append_singleton, agree]
      constructor
      · exact and_congr_right fun meets => ((same meets).step hfoundation hstep).1
      · rintro ⟨meets, serves⟩
        exact ((same meets).step hfoundation hstep).2 serves
  exact both.1

/-- The call writes the item of `keyId`. -/
def WritesItem (keyId : String) : ShareOp → Prop
  | .save record => record.keyId = keyId
  | .load _ => False
  | .remove removed => removed = keyId

/-- The share was saved, and every later call that writes its item was rejected. -/
def LastSaved (foundation : FoundationBase64)
    (taken : List (KeychainStorages × ShareOp × KeychainConditions)) (record : ShareRecord) :
    Prop :=
  ∃ earlier s works later, taken = earlier ++ (s, .save record, works) :: later ∧
    ¬ (keychainReply foundation (s, .save record, works)).Rejects ∧
    ∀ p ∈ later, WritesItem record.keyId p.2.1 → (keychainReply foundation p).Rejects

theorem LastSaved.later {record : ShareRecord} (h : LastSaved foundation taken record)
    {p : KeychainStorages × ShareOp × KeychainConditions}
    (rejects : WritesItem record.keyId p.2.1 → (keychainReply foundation p).Rejects) :
    LastSaved foundation (taken ++ [p]) record := by
  obtain ⟨earlier, s, works, later, rfl, resolved, rejected⟩ := h
  refine ⟨earlier, s, works, later ++ [p], by simp, resolved, ?_⟩
  intro q mem writes
  rcases List.mem_append.mp mem with mem | mem
  · exact rejected q mem writes
  · obtain rfl := List.mem_singleton.mp mem
    exact rejects writes

theorem LastSaved.saved {record : ShareRecord} {works : KeychainConditions}
    (resolved : ¬ (keychainReply foundation (s, .save record, works)).Rejects) :
    LastSaved foundation (taken ++ [(s, .save record, works)]) record :=
  ⟨taken, s, works, [], rfl, resolved, fun _ mem => by cases mem⟩

/-- What the items are after a call. -/
theorem lastSaved_step (hfoundation : foundation.Lawful)
    (known : ∀ keyId blob, s.keychain.items keyId = some blob →
      LastSaved foundation taken ⟨keyId, blob⟩) (op : ShareOp) (works : KeychainConditions)
    {keyId : String} {blob : Bytes}
    (found : (s.keychain.apply foundation works op).2.items keyId = some blob) :
    LastSaved foundation (taken ++ [(s, op, works)]) ⟨keyId, blob⟩ := by
  have spec := MaanyMpcSecureStorage.apply_keeps hfoundation s.keychain works op
  cases reply : s.keychain.apply foundation works op with
  | mk answer keychain =>
      rw [reply] at spec found
      have answered : keychainReply foundation (s, op, works) = answer :=
        congrArg Prod.fst reply
      cases spec with
      | rejected lost =>
          refine (known keyId blob (lost keyId blob found)).later fun _ => ?_
          exact ⟨_, answered⟩
      | resolved answers =>
          rw [← answered] at answers
          cases op with
          | save record =>
              by_cases same : keyId = record.keyId
              · subst same
                simp only [InMemoryShareStorage.apply, Function.update_self,
                  Option.some.injEq] at found
                subst found
                exact .saved answers
              · simp only [InMemoryShareStorage.apply, Function.update_of_ne same] at found
                exact (known keyId blob found).later fun writes => absurd writes.symm same
          | load loaded => exact (known keyId blob found).later fun writes => writes.elim
          | remove removed =>
              by_cases same : keyId = removed
              · subst same
                simp [InMemoryShareStorage.apply] at found
              · simp only [InMemoryShareStorage.apply, Function.update_of_ne same] at found
                exact (known keyId blob found).later fun writes => absurd writes.symm same

/-- Whatever fails, a share that is loaded is the one that the last save or removal of its item to
be resolved has left: a save that is rejected may lose it, but none brings an earlier one back. -/
theorem keychain_loads_last_saved (hfoundation : foundation.Lawful)
    (run : (keychainStorages foundation).Run taken replies s) {keyId : String}
    {works : KeychainConditions} {record : ShareRecord}
    (loaded : keychainReply foundation (s, .load keyId, works) = .loaded (some record)) :
    record.keyId = keyId ∧ LastSaved foundation taken record := by
  have known : ∀ keyId blob, s.keychain.items keyId = some blob →
      LastSaved foundation taken ⟨keyId, blob⟩ := by
    refine run.history_invariant (fun taken _ s => ∀ keyId blob,
      s.keychain.items keyId = some blob → LastSaved foundation taken ⟨keyId, blob⟩) ?_ ?_
    · intro keyId blob found
      cases found
    · rintro taken replies s ⟨op, works⟩ s' emitted _ known hstep keyId blob found
      simp only [keychainStorages, Option.some.injEq, Prod.mk.injEq] at hstep
      obtain ⟨rfl, rfl⟩ := hstep
      exact lastSaved_step hfoundation known op works found
  rw [keychainReply, MaanyMpcSecureStorage.apply_load hfoundation] at loaded
  split_ifs at loaded with copies
  simp only [ShareReply.loaded.injEq, Option.map_eq_some_iff, Option.filter_eq_some_iff] at loaded
  obtain ⟨blob, ⟨found, _⟩, rfl⟩ := loaded
  exact ⟨rfl, known keyId blob found⟩

end Runs

/-! ## A save that fails -/

def sampleFoundation : FoundationBase64 where
  initWithBase64EncodedString text := some (Base64.decode text)
  base64EncodedString := Base64.encode

theorem sampleFoundation_lawful : sampleFoundation.Lawful where
  encode _ := rfl
  decode bytes := congrArg some (Base64.decode_encode bytes)

def allWorks : KeychainConditions := ⟨true, true, true, true⟩

/-- A share is saved, a save that cannot add its item loses it, and the two storages part. -/
theorem keychain_agrees_iff_lost : ∃ taken s,
    (keychainStorages sampleFoundation).Run taken
      [⟨.done, .done⟩, ⟨.done, .rejected "ERR_SAVE_SHARE"⟩,
        ⟨.loaded (some ⟨"k", [2]⟩), .loaded none⟩] s ∧
    ¬ Machine.Meets KeychainServes taken := by
  have saved := (Machine.Run.start (M := keychainStorages sampleFoundation)).next
    (a := (.save ⟨"k", [1]⟩, allWorks)) rfl
  have lost := saved.next (a := (.save ⟨"k", [2]⟩, { allWorks with adds := false })) rfl
  have loaded := lost.next (a := (.load "k", allWorks)) rfl
  refine ⟨_, _, loaded, ?_⟩
  rw [← keychain_agrees_iff sampleFoundation_lawful loaded]
  exact fun agree => absurd (agree ⟨.done, .rejected "ERR_SAVE_SHARE"⟩ (by decide)) (by decide)

theorem keychain_loads_last_saved_twice : ∃ taken replies s,
    (keychainStorages sampleFoundation).Run taken replies s ∧ taken.length = 2 ∧
      LastSaved sampleFoundation taken ⟨"k", [2]⟩ := by
  have saved := (Machine.Run.start (M := keychainStorages sampleFoundation)).next
    (a := (.save ⟨"k", [1]⟩, allWorks)) rfl
  have again := saved.next (a := (.save ⟨"k", [2]⟩, allWorks)) rfl
  refine ⟨_, _, _, again, rfl, ?_⟩
  exact (keychain_loads_last_saved sampleFoundation_lawful again
    (show keychainReply _ (_, .load "k", allWorks) = .loaded (some ⟨"k", [2]⟩) from rfl)).2

end MaanyMpc
