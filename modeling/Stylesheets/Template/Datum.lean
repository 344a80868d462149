import Stylesheets.Template.Engine
import Stylesheets.Template.Syntax
import Stylesheets.Text.Number

/-!
# What paths lead to

A template is rendered for a value, which is framed by what surrounds it.  A
path goes from the current frame step by step, outwards to the surrounding
frame or inwards to an entry of a table or an item of a list.
-/

namespace Stylesheets.Template

structure Loop where
  index : Nat
  key : Option Text
  isFirst : Bool
  isLast : Bool
  deriving DecidableEq, Repr

inductive Datum where
  | value (value : Value)
  | operation (effect : Option Breach)
  | frame (context parent : Datum) (loop : Option Loop)
  deriving Inhabited

namespace Datum

def nothing : Datum := value .null

def bool (value : Bool) : Datum := .value (.bool value)

def framed : Datum → Datum
  | frame context parent loop => frame context parent loop
  | datum => frame datum datum none

def tableOperations : List (Text × Option Breach) := [
  ("clear".toList, some .wrongKind),
  ("copy".toList, some .wrongKind),
  ("get".toList, none),
  ("items".toList, some .wrongKind),
  ("keys".toList, some .wrongKind),
  ("pop".toList, some .missingKey),
  ("popitem".toList, some .wrongKind),
  ("setdefault".toList, none),
  ("update".toList, some .wrongKind),
  ("values".toList, some .wrongKind)]

def textOperations : List Text := [
  "capitalize".toList, "center".toList, "count".toList, "encode".toList,
  "find".toList, "index".toList, "join".toList, "lower".toList,
  "replace".toList, "split".toList, "strip".toList, "title".toList,
  "upper".toList]

def entry (name : Text) : Value → Datum
  | .table entries =>
    match Table.get? entries name with
    | some found => value found
    | none =>
      match tableOperations.lookup name with
      | some effect => operation effect
      | none => nothing
  | .text _ =>
    if textOperations.elem name then operation (some .wrongKind) else nothing
  | _ => nothing

def ofLoop? (loop : Loop) (name : Text) : Option Datum :=
  if name = "@index".toList then some (value (.int loop.index))
  else if name = "@key".toList then loop.key.map fun key => value (.text key)
  else if name = "@first".toList then some (bool loop.isFirst)
  else if name = "@last".toList then some (bool loop.isLast)
  else none

def rootName : Text := "@root".toList

def contextName : Text := "this".toList

def get (root : Value) (name : Text) : Datum → Datum
  | value held => entry name held
  | operation _ => nothing
  | frame context parent loop =>
    if name = rootName then value root
    else if name = outward then parent
    else
      match loop.bind fun loop => ofLoop? loop name with
      | some found => found
      | none => if name = contextName then context else get root name context

/-- The item at an offset, which is counted from the end if it is negative. -/
def itemAt? (items : List α) (offset : Int) : Option α :=
  let place := if offset < 0 then offset + items.length else offset
  if place < 0 then none else items[place.toNat]?

def item (items : List Value) (step : Text) : Except Failure Datum :=
  match Text.integer? step with
  | none => .error (.breach .invalidValue)
  | some offset =>
    match itemAt? items offset with
    | none => .error (.breach .offsetOutside)
    | some found => .ok (value found)

def lengthName : Text := "length".toList

/-- Drops one of the two marks of a step that is to be looked up in surrounding data. -/
def withoutCarry (step : Text) : Text × Bool :=
  match step with
  | '@' :: '@' :: name => ('@' :: name, true)
  | step => (step, false)

def follow (root : Value) (carried : Bool) (datum : Datum) : Steps → Except Failure Datum
  | [] => .ok datum
  | written :: rest =>
    let (step, carries) := withoutCarry (if carried then '@' :: written else written)
    match datum with
    | value .null => .ok nothing
    | value (.list items) =>
      if step.isEmpty then follow root carries datum rest
      else if step = lengthName then .ok (value (.int items.length))
      else
        match item items step with
        | .error failure => .error failure
        | .ok found => follow root carries found rest
    | datum =>
      follow root carries (if step.isEmpty then datum else get root step datum) rest

def resolve (root : Value) (datum : Datum) (steps : Steps) : Except Failure Datum :=
  match steps, datum with
  | [[]], frame context _ _ => .ok context
  | steps, datum => follow root false datum steps

def isNothing : Datum → Bool
  | value .null => true
  | _ => false

/-- A frame counts as its context does, which must have a length. -/
def isTruthy : Datum → Except Failure Bool
  | value held => .ok held.isTruthy
  | operation _ => .ok true
  | frame context _ _ =>
    match context with
    | value held =>
      if held.items?.isSome then .ok held.isTruthy else .error (.breach .wrongKind)
    | operation _ => .error (.breach .wrongKind)
    | context => isTruthy context

def display : Datum → Text
  | value .null => []
  | value (.bool true) => "true".toList
  | value (.bool false) => "false".toList
  | value held => held.display
  | operation _ => []
  | frame context _ _ =>
    match context with
    | value held => held.display
    | context => display context

def used : Datum → Except Failure Datum
  | operation none => .ok nothing
  | operation (some cause) => .error (.breach cause)
  | datum => .ok datum

end Datum

end Stylesheets.Template
