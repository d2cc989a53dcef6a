-- Reading a JSON text. A value is written as its tokens, and whatever open
-- containers lie on the stack, its tokens deliver it to the innermost one.
import AdmissionGate.Json.Document
import AdmissionGate.Proofs.Json.Tokens

namespace AdmissionGate.Json

/-! ## Tokens of a value -/

mutual

/-- The tokens of a value. -/
def tokens : Json → List Token
  | .null => [.null]
  | .bool b => [.bool b]
  | .number n => [.number n]
  | .text t => [.text t]
  | .array [] => [.openArray, .closeArray]
  | .array (v :: rest) => .openArray :: (v.tokens ++ moreItems rest)
  | .object [] => [.openObject, .closeObject]
  | .object ((name, v) :: rest) =>
    .openObject :: .text name :: .colon :: (v.tokens ++ moreFields rest)

/-- The tokens of further items, and the bracket behind them. -/
def moreItems : List Json → List Token
  | [] => [.closeArray]
  | v :: rest => .comma :: (v.tokens ++ moreItems rest)

/-- The tokens of further fields, and the bracket behind them. -/
def moreFields : List (Option String × Json) → List Token
  | [] => [.closeObject]
  | (name, v) :: rest => .comma :: .text name :: .colon :: (v.tokens ++ moreFields rest)

end

/-- Bytes that are a value written as JSON, in any spelling and with any blanks. -/
def IsTextOf (bs : Bytes) (v : Json) : Prop := SpellsAll v.tokens bs

/-! ## The stack -/

/-- An array may begin with any value. -/
theorem foldlM_firstItem (v : Json) (stack : List Frame) (ts : List Token) :
    (v.tokens ++ ts).foldlM step? ⟨stack, .firstItem⟩ =
      (v.tokens ++ ts).foldlM step? ⟨stack, .value⟩ := by
  rcases v with _ | b | n | t | (_ | ⟨w, rest⟩) | (_ | ⟨⟨name, w⟩, rest⟩) <;> rfl

mutual

/-- The tokens of a value deliver it. -/
theorem foldlM_tokens (v : Json) (stack : List Frame) (ts : List Token) :
    (v.tokens ++ ts).foldlM step? ⟨stack, .value⟩ =
      (deliver? v stack).bind fun s => ts.foldlM step? s := by
  match v with
  | .null => rfl
  | .bool b => rfl
  | .number n => rfl
  | .text t => rfl
  | .array [] => rfl
  | .array (w :: rest) =>
    show (w.tokens ++ moreItems rest ++ ts).foldlM step? ⟨.array [] :: stack, .firstItem⟩ = _
    rw [List.append_assoc, foldlM_firstItem, foldlM_tokens w]
    exact foldlM_moreItems rest [w] stack ts
  | .object [] => rfl
  | .object ((name, w) :: rest) =>
    show (w.tokens ++ moreFields rest ++ ts).foldlM step? ⟨.field [] name :: stack, .value⟩ = _
    rw [List.append_assoc, foldlM_tokens w]
    exact foldlM_moreFields rest [(name, w)] stack ts

/-- Further items complete the array that holds those before them. -/
theorem foldlM_moreItems (items before : List Json) (stack : List Frame) (ts : List Token) :
    (moreItems items ++ ts).foldlM step? ⟨.array before :: stack, .afterItem⟩ =
      (deliver? (.array (before.reverse ++ items)) stack).bind fun s => ts.foldlM step? s := by
  match items with
  | [] =>
    rw [List.append_nil]
    rfl
  | w :: rest =>
    show (w.tokens ++ moreItems rest ++ ts).foldlM step? ⟨.array before :: stack, .value⟩ = _
    rw [List.append_assoc, foldlM_tokens w]
    refine (foldlM_moreItems rest (w :: before) stack ts).trans ?_
    rw [List.reverse_cons, List.append_assoc]
    rfl

/-- Further fields complete the object that holds those before them. -/
theorem foldlM_moreFields (fields before : List (Option String × Json)) (stack : List Frame)
    (ts : List Token) :
    (moreFields fields ++ ts).foldlM step? ⟨.object before :: stack, .afterField⟩ =
      (deliver? (.object (before.reverse ++ fields)) stack).bind fun s => ts.foldlM step? s := by
  match fields with
  | [] =>
    rw [List.append_nil]
    rfl
  | (name, w) :: rest =>
    show (w.tokens ++ moreFields rest ++ ts).foldlM step? ⟨.field before name :: stack, .value⟩ = _
    rw [List.append_assoc, foldlM_tokens w]
    refine (foldlM_moreFields rest ((name, w) :: before) stack ts).trans ?_
    rw [List.reverse_cons, List.append_assoc]
    rfl

end

/-- A value is read from each of its texts. -/
theorem ofBytes?_of_isTextOf {bs : Bytes} {v : Json} (h : IsTextOf bs v) :
    ofBytes? bs = some v := by
  have hrun := foldlM_tokens v [] []
  rw [List.append_nil] at hrun
  rw [ofBytes?, tokens?_of_spells h, Option.bind_some, ofTokens?, State.start, hrun]
  rfl

end AdmissionGate.Json
