import MaanyMpc.Coordinator.Bytes

/-! # Sign bytes

`makeSignBytes` puts the fields of a document one after the other, without their lengths. -/

namespace MaanyMpc

@[ext] structure SignDoc where
  chainId : String
  accountNumber : String
  sequence : String
  bodyBytes : Bytes
  authInfoBytes : Bytes
  deriving DecidableEq

/-- `Buffer.concat` is `List.flatten`. -/
def CoordinatorNode.makeSignBytes (doc : SignDoc) : Bytes :=
  [doc.bodyBytes, doc.authInfoBytes, utf8 doc.chainId, utf8 doc.accountNumber,
    utf8 doc.sequence].flatten

def CoordinatorRn.makeSignBytes (doc : SignDoc) : Bytes :=
  concatBytes [doc.bodyBytes, doc.authInfoBytes, utf8 doc.chainId, utf8 doc.accountNumber,
    utf8 doc.sequence]

theorem makeSignBytes_eq (doc : SignDoc) :
    CoordinatorRn.makeSignBytes doc = CoordinatorNode.makeSignBytes doc :=
  concatBytes_eq_flatten _

def SignDoc.empty : SignDoc where
  chainId := ""
  accountNumber := ""
  sequence := ""
  bodyBytes := []
  authInfoBytes := []

/-- The bytes of the document are those of no other document. -/
def Unambiguous (makeSignBytes : SignDoc → Bytes) (doc : SignDoc) : Prop :=
  ∀ other, makeSignBytes other = makeSignBytes doc → other = doc

/-- All bytes in the body. -/
def SignDoc.ofBody (bytes : Bytes) : SignDoc := { empty with bodyBytes := bytes }

/-- All bytes in the authentication information. -/
def SignDoc.ofAuthInfo (bytes : Bytes) : SignDoc := { empty with authInfoBytes := bytes }

theorem makeSignBytes_ofBody (bytes : Bytes) :
    CoordinatorNode.makeSignBytes (.ofBody bytes) = bytes := by
  have none : utf8 "" = [] := (utf8_eq_nil_iff "").mpr rfl
  simp [CoordinatorNode.makeSignBytes, SignDoc.ofBody, SignDoc.empty, none]

theorem makeSignBytes_ofAuthInfo (bytes : Bytes) :
    CoordinatorNode.makeSignBytes (.ofAuthInfo bytes) = bytes := by
  have none : utf8 "" = [] := (utf8_eq_nil_iff "").mpr rfl
  simp [CoordinatorNode.makeSignBytes, SignDoc.ofAuthInfo, SignDoc.empty, none]

theorem makeSignBytes_eq_nil_iff (doc : SignDoc) :
    CoordinatorNode.makeSignBytes doc = [] ↔ doc = .empty := by
  simp only [CoordinatorNode.makeSignBytes, List.flatten_cons, List.flatten_nil, List.append_nil,
    List.append_eq_nil_iff, utf8_eq_nil_iff, SignDoc.ext_iff, SignDoc.empty]
  tauto

/-- Only the empty document is unambiguous: any other bytes could as well be all body or all
authentication information. -/
theorem unambiguous_iff_empty (doc : SignDoc) :
    Unambiguous CoordinatorNode.makeSignBytes doc ↔ doc = .empty := by
  constructor
  · intro h
    have body := h (.ofBody (CoordinatorNode.makeSignBytes doc)) (makeSignBytes_ofBody _)
    have authInfo :=
      h (.ofAuthInfo (CoordinatorNode.makeSignBytes doc)) (makeSignBytes_ofAuthInfo _)
    have none : CoordinatorNode.makeSignBytes doc = [] :=
      congrArg SignDoc.bodyBytes (body.trans authInfo.symm)
    exact (makeSignBytes_eq_nil_iff doc).mp none
  · rintro rfl other same
    rw [(makeSignBytes_eq_nil_iff .empty).mpr rfl] at same
    exact (makeSignBytes_eq_nil_iff other).mp same

/-- Between documents whose fields, but for one, are known to be equally long, the bytes
decide. -/
theorem eq_of_makeSignBytes_eq {a b : SignDoc}
    (body : a.bodyBytes.length = b.bodyBytes.length)
    (authInfo : a.authInfoBytes.length = b.authInfoBytes.length)
    (chainId : (utf8 a.chainId).length = (utf8 b.chainId).length)
    (accountNumber : (utf8 a.accountNumber).length = (utf8 b.accountNumber).length)
    (same : CoordinatorNode.makeSignBytes a = CoordinatorNode.makeSignBytes b) : a = b := by
  simp only [CoordinatorNode.makeSignBytes, List.flatten_cons, List.flatten_nil,
    List.append_nil] at same
  obtain ⟨bodies, same⟩ := List.append_inj same body
  obtain ⟨authInfos, same⟩ := List.append_inj same authInfo
  obtain ⟨chainIds, same⟩ := List.append_inj same chainId
  obtain ⟨accountNumbers, sequences⟩ := List.append_inj same accountNumber
  exact SignDoc.ext (utf8_injective chainIds) (utf8_injective accountNumbers)
    (utf8_injective sequences) bodies authInfos

/-- In both coordinators a document other than the empty one shares its sign bytes. -/
theorem signBytes_unambiguous_iff (doc : SignDoc) :
    (Unambiguous CoordinatorNode.makeSignBytes doc ↔ doc = .empty) ∧
      (Unambiguous CoordinatorRn.makeSignBytes doc ↔ doc = .empty) := by
  have rn : CoordinatorRn.makeSignBytes = CoordinatorNode.makeSignBytes := funext makeSignBytes_eq
  rw [rn]
  exact ⟨unambiguous_iff_empty doc, unambiguous_iff_empty doc⟩

/-- Account 1 with sequence 23, and account 12 with sequence 3. -/
theorem account_runs_into_sequence :
    (⟨"cosmoshub-4", "1", "23", [10], [18]⟩ : SignDoc) ≠ ⟨"cosmoshub-4", "12", "3", [10], [18]⟩ ∧
      CoordinatorNode.makeSignBytes ⟨"cosmoshub-4", "1", "23", [10], [18]⟩ =
        CoordinatorNode.makeSignBytes ⟨"cosmoshub-4", "12", "3", [10], [18]⟩ ∧
      CoordinatorRn.makeSignBytes ⟨"cosmoshub-4", "1", "23", [10], [18]⟩ =
        CoordinatorRn.makeSignBytes ⟨"cosmoshub-4", "12", "3", [10], [18]⟩ := by
  decide

end MaanyMpc
