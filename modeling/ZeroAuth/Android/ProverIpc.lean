/-
  ZeroAuth.Android.ProverIpc

  The messages between the main process and the prover (android/.../prover/ProverIpc.kt):
  what `writeToParcel` appends to a `Parcel`, and what `createFromParcel` reads off it.

  A `Parcel` is a queue of typed items.  A list of strings is its size and then its strings, as
  `writeStringList` and `readStringList` have it; `pi_b` is a size and then such lists.
-/

import ZeroAuth.Android.Prover
import ZeroAuth.Lib.ItemQueue

namespace ZeroAuth.Android

open ZeroAuth.Js ZeroAuth.Lib

/-! ## Parcels -/

/-- A `Float` is its bits; `writeString` takes `null`. -/
inductive ParcelItem
  | string (s : Option JsString)
  | int (i : ℤ)
  | long (i : Long)
  | float (bits : BitVec 32)

namespace Parcel

/-- A read of another type than was written is a failure. -/
def readString : Reader ParcelItem (Option JsString) := readItem fun
  | .string s => some s
  | _ => none

def readInt : Reader ParcelItem ℤ := readItem fun
  | .int i => some i
  | _ => none

def readLong : Reader ParcelItem Long := readItem fun
  | .long i => some i
  | _ => none

def readFloat : Reader ParcelItem (BitVec 32) := readItem fun
  | .float bits => some bits
  | _ => none

/-- `readString().orEmpty()`. -/
def readStringOrEmpty : Reader ParcelItem JsString := do
  return (← readString).getD []

def writeString (s : JsString) : List ParcelItem := [.string (some s)]

def writeStringList (list : List JsString) : List ParcelItem :=
  .int list.length :: list.flatMap writeString

/-- An element of a list of strings; `null` is none. -/
def readElement : Reader ParcelItem JsString := readItem fun
  | .string s => s
  | _ => none

/-- `readStringList` into an empty list. -/
def readStringList : Reader ParcelItem (List JsString) := do
  let n ← readInt
  readTimes n.toNat readElement

theorem reads_string (s : JsString) : Reads readStringOrEmpty (writeString s) s := by
  have hitem : Reads readString (writeString s) (some s) := Reads.item rfl
  exact hitem.map fun s => s.getD []

theorem reads_int (i : ℤ) : Reads readInt [.int i] i := Reads.item rfl

theorem reads_stringList (list : List JsString) :
    Reads readStringList (writeStringList list) list := by
  have helement : ∀ s, Reads readElement (writeString s) s := fun s => Reads.item rfl
  exact (reads_int list.length).bind (Reads.times helement list)

end Parcel

open Parcel

/-! ## ProverRequest -/

namespace ProverRequest

def writeToParcel (r : ProverRequest) : List ParcelItem :=
  writeString r.biometricSecret ++ writeString r.salt ++ writeString r.commitment ++
    writeString r.didHash ++ writeString r.did ++ writeString r.sessionNonceHex

def createFromParcel : Reader ParcelItem ProverRequest := do
  return {
    biometricSecret := ← readStringOrEmpty
    salt := ← readStringOrEmpty
    commitment := ← readStringOrEmpty
    didHash := ← readStringOrEmpty
    did := ← readStringOrEmpty
    sessionNonceHex := ← readStringOrEmpty }

end ProverRequest

/-! ## ProverResponse -/

structure ProverSuccess where
  pi_a : List JsString
  pi_b : List (List JsString)
  pi_c : List JsString
  protocol : JsString
  curve : JsString
  publicSignals : List JsString
  did : JsString
  proofMs : Long

inductive ProverResponse
  | progress (fraction : BitVec 32)
  | success (s : ProverSuccess)
  | failure (code errorMessage : JsString)

namespace ProverResponse

def kindProgress : ℤ := 1

def kindSuccess : ℤ := 2

def kindFailure : ℤ := 3

def writeToParcel : ProverResponse → List ParcelItem
  | progress fraction => [.int kindProgress, .float fraction]
  | success s =>
      .int kindSuccess :: (writeStringList s.pi_a ++
        (.int s.pi_b.length :: s.pi_b.flatMap writeStringList) ++ writeStringList s.pi_c ++
        writeString s.protocol ++ writeString s.curve ++ writeStringList s.publicSignals ++
        writeString s.did ++ [.long s.proofMs])
  | failure code errorMessage =>
      .int kindFailure :: (writeString code ++ writeString errorMessage)

/-- `ArrayList(piBSize)` throws for a negative size. -/
def readRows : Reader ParcelItem (List (List JsString)) := do
  let piBSize ← readInt
  if piBSize < 0 then readFail else readTimes piBSize.toNat readStringList

def readSuccess : Reader ParcelItem ProverSuccess := do
  return {
    pi_a := ← readStringList
    pi_b := ← readRows
    pi_c := ← readStringList
    protocol := ← readStringOrEmpty
    curve := ← readStringOrEmpty
    publicSignals := ← readStringList
    did := ← readStringOrEmpty
    proofMs := ← readLong }

def createFromParcel : Reader ParcelItem ProverResponse := do
  let kind ← readInt
  if kind = kindProgress then return progress (← readFloat)
  else if kind = kindSuccess then return success (← readSuccess)
  else if kind = kindFailure then
    let code ← readStringOrEmpty
    let errorMessage ← readStringOrEmpty
    return failure code errorMessage
  else
    return failure (js "prover_failed") (js "Unknown ProverResponse kind: " ++ signedText 10 kind)

end ProverResponse

namespace ProverSuccess

def toGenerateOutput (s : ProverSuccess) : GenerateOutput where
  proof := ⟨s.pi_a, s.pi_b, s.pi_c, s.protocol, s.curve⟩
  publicSignals := s.publicSignals
  did := s.did
  proofMs := s.proofMs

def fromGenerateOutput (out : GenerateOutput) : ProverSuccess where
  pi_a := out.proof.pi_a
  pi_b := out.proof.pi_b
  pi_c := out.proof.pi_c
  protocol := out.proof.protocol
  curve := out.proof.curve
  publicSignals := out.publicSignals
  did := out.did
  proofMs := out.proofMs

end ProverSuccess

/-! ## Round trips -/

theorem reads_request (r : ProverRequest) :
    Reads ProverRequest.createFromParcel r.writeToParcel r := by
  simp only [ProverRequest.writeToParcel, List.append_assoc]
  refine (reads_string r.biometricSecret).bind ?_
  refine (reads_string r.salt).bind ?_
  refine (reads_string r.commitment).bind ?_
  refine (reads_string r.didHash).bind ?_
  refine (reads_string r.did).bind ?_
  exact (reads_string r.sessionNonceHex).map _

theorem reads_rows (rows : List (List JsString)) :
    Reads ProverResponse.readRows (.int rows.length :: rows.flatMap writeStringList) rows := by
  refine (reads_int rows.length).bind ?_
  rw [if_neg (by omega)]
  exact Reads.times reads_stringList rows

theorem reads_success (s : ProverSuccess) :
    Reads ProverResponse.readSuccess (writeStringList s.pi_a ++
      (.int s.pi_b.length :: s.pi_b.flatMap writeStringList) ++ writeStringList s.pi_c ++
      writeString s.protocol ++ writeString s.curve ++ writeStringList s.publicSignals ++
      writeString s.did ++ [.long s.proofMs]) s := by
  simp only [List.append_assoc]
  have hlong : Reads readLong [.long s.proofMs] s.proofMs := Reads.item rfl
  refine (reads_stringList s.pi_a).bind ?_
  refine (reads_rows s.pi_b).bind ?_
  refine (reads_stringList s.pi_c).bind ?_
  refine (reads_string s.protocol).bind ?_
  refine (reads_string s.curve).bind ?_
  refine (reads_stringList s.publicSignals).bind ?_
  refine (reads_string s.did).bind ?_
  exact hlong.map _

theorem reads_response (r : ProverResponse) :
    Reads ProverResponse.createFromParcel r.writeToParcel r := by
  cases r with
  | progress fraction =>
      have hfloat : Reads readFloat [.float fraction] fraction := Reads.item rfl
      exact (reads_int _).bind (hfloat.map ProverResponse.progress)
  | success s => exact (reads_int _).bind ((reads_success s).map ProverResponse.success)
  | failure code errorMessage =>
      refine (reads_int _).bind ((reads_string code).bind ?_)
      exact (reads_string errorMessage).map (ProverResponse.failure code)

/-- What crosses the boundary; `kind` says which class the receiver expects. -/
abbrev ProverMessage := ProverRequest ⊕ ProverResponse

namespace ProverMessage

def isRequest (m : ProverMessage) : Bool := m.isLeft

def writeToParcel : ProverMessage → List ParcelItem
  | .inl request => request.writeToParcel
  | .inr response => response.writeToParcel

def createFromParcel : Bool → Reader ParcelItem ProverMessage
  | true => do return .inl (← ProverRequest.createFromParcel)
  | false => do return .inr (← ProverResponse.createFromParcel)

end ProverMessage

/-- Messages in any number come out of a parcel as they were written, and what is behind them is
    left; an output survives its response. -/
theorem messages_survive :
    (∀ (r : ProverRequest) rest,
      ProverRequest.createFromParcel.run (r.writeToParcel ++ rest) = some (r, rest)) ∧
    (∀ (r : ProverResponse) rest,
      ProverResponse.createFromParcel.run (r.writeToParcel ++ rest) = some (r, rest)) ∧
    (∀ (ms : List ProverMessage) rest,
      (readEach ProverMessage.createFromParcel (ms.map ProverMessage.isRequest)).run
        (ms.flatMap ProverMessage.writeToParcel ++ rest) = some (ms, rest)) ∧
    ∀ out, (ProverSuccess.fromGenerateOutput out).toGenerateOutput = out := by
  have hmessage : ∀ m : ProverMessage, Reads (ProverMessage.createFromParcel m.isRequest)
      m.writeToParcel m := by
    intro m
    cases m with
    | inl request => exact (reads_request request).map Sum.inl
    | inr response => exact (reads_response response).map Sum.inr
  exact ⟨reads_request, reads_response, Reads.each hmessage, fun _ => rfl⟩

end ZeroAuth.Android
