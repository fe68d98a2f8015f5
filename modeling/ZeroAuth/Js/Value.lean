/-
  ZeroAuth.Js.Value

  JavaScript values as far as `JSON.stringify` tells them apart.
-/

import ZeroAuth.Js.Json

namespace ZeroAuth.Js

/-- A JavaScript value.  `undef` is `undefined` and everything else that
    `JSON.stringify` leaves out (functions, symbols); `nonFinite` is `NaN` and the
    infinities; `boxed` is an object with a `toJSON` method, such as a `Date`:
    its own enumerable properties and what the method returns.  The properties
    of an object are in insertion order. -/
inductive JsVal
  | undef
  | null
  | bool (b : Bool)
  | num (n : JsNumber)
  | nonFinite
  | str (s : JsString)
  | arr (items : List JsVal)
  | obj (props : List (JsString × JsVal))
  | boxed (props : List (JsString × JsVal)) (json : Json)

namespace JsVal

mutual

/-- The JSON value that `JSON.stringify` writes; `none` is its answer
    `undefined`. -/
def toJson : JsVal → Option Json
  | undef => none
  | null => some .null
  | bool b => some (.bool b)
  | num n => some (.num n)
  | nonFinite => some .null
  | str s => some (.str s)
  | arr items => some (.arr (toJsonItems items))
  | obj props => some (.obj (toJsonProps props))
  | boxed _ json => some json

/-- An array keeps its length: `undefined` is written as `null`. -/
def toJsonItems : List JsVal → List Json
  | [] => []
  | v :: vs => (toJson v).getD .null :: toJsonItems vs

/-- A property whose value is `undefined` is left out. -/
def toJsonProps : List (JsString × JsVal) → List (JsString × Json)
  | [] => []
  | (k, v) :: ps =>
      match toJson v with
      | some j => (k, j) :: toJsonProps ps
      | none => toJsonProps ps

end

/-- `JSON.stringify`. -/
def stringify (v : JsVal) : Option JsString := v.toJson.map Json.print

mutual

/-- The value that `JSON.parse` builds. -/
def ofJson : Json → JsVal
  | .null => null
  | .bool b => bool b
  | .num n => num n
  | .str s => str s
  | .arr items => arr (ofJsonItems items)
  | .obj props => obj (ofJsonProps props)

def ofJsonItems : List Json → List JsVal
  | [] => []
  | v :: vs => ofJson v :: ofJsonItems vs

def ofJsonProps : List (JsString × Json) → List (JsString × JsVal)
  | [] => []
  | (k, v) :: ps => (k, ofJson v) :: ofJsonProps ps

end

mutual

/-- Plain data: no `undefined` and no `toJSON` at any depth. -/
def Plain : JsVal → Bool
  | undef => false
  | boxed _ _ => false
  | arr items => PlainItems items
  | obj props => PlainProps props
  | _ => true

def PlainItems : List JsVal → Bool
  | [] => true
  | v :: vs => Plain v && PlainItems vs

def PlainProps : List (JsString × JsVal) → Bool
  | [] => true
  | (_, v) :: ps => Plain v && PlainProps ps

end

mutual

theorem plain_ofJson : ∀ v : Json, Plain (ofJson v) = true
  | .null | .bool _ | .num _ | .str _ => rfl
  | .arr items => plain_ofJsonItems items
  | .obj props => plain_ofJsonProps props

theorem plain_ofJsonItems : ∀ items : List Json, PlainItems (ofJsonItems items) = true
  | [] => rfl
  | v :: vs => by rw [ofJsonItems, PlainItems, plain_ofJson v, plain_ofJsonItems vs]; rfl

theorem plain_ofJsonProps : ∀ props : List (JsString × Json), PlainProps (ofJsonProps props) = true
  | [] => rfl
  | (k, v) :: ps => by rw [ofJsonProps, PlainProps, plain_ofJson v, plain_ofJsonProps ps]; rfl

end

mutual

/-- Reading JSON text and writing it again gives the same value. -/
theorem toJson_ofJson : ∀ v : Json, toJson (ofJson v) = some v
  | .null | .bool _ | .num _ | .str _ => rfl
  | .arr items => by rw [ofJson, toJson, toJsonItems_ofJsonItems items]
  | .obj props => by rw [ofJson, toJson, toJsonProps_ofJsonProps props]

theorem toJsonItems_ofJsonItems : ∀ items : List Json, toJsonItems (ofJsonItems items) = items
  | [] => rfl
  | v :: vs => by
      rw [ofJsonItems, toJsonItems, toJson_ofJson v, toJsonItems_ofJsonItems vs]
      rfl

theorem toJsonProps_ofJsonProps : ∀ props : List (JsString × Json),
    toJsonProps (ofJsonProps props) = props
  | [] => rfl
  | (k, v) :: ps => by
      rw [ofJsonProps, toJsonProps, toJson_ofJson v, toJsonProps_ofJsonProps ps]

end

end JsVal

end ZeroAuth.Js
