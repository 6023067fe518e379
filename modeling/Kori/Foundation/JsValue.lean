import Mathlib.Data.List.Basic

/-!
# Runtime values

The values that responses and claims are made of, over any type of numbers and of dates.
An object is the list of its own properties, in the order in which they are enumerated.
-/

namespace Kori.Foundation

inductive JsValue (Num Date : Type) where
  | undefined
  | null
  | boolean (b : Bool)
  | number (n : Num)
  | bigint (n : Int)
  | string (s : List UInt16)
  | date (d : Date)
  | array (items : List (JsValue Num Date))
  | object (properties : List (List UInt16 × JsValue Num Date))

namespace JsValue

variable {Num Date : Type}

def get (value : JsValue Num Date) (key : List UInt16) : JsValue Num Date :=
  match value with
  | object properties => (properties.lookup key).getD undefined
  | _ => undefined

end JsValue

end Kori.Foundation
