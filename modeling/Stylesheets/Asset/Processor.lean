import Stylesheets.Charset
import Stylesheets.Template.Engine

/-!
# Processors

A processor turns the text of an asset into another text.  The processors of
the stylesheet family belong to the compiler and leave a text as it is.
-/

namespace Stylesheets

inductive Family where
  | generic
  | stylesheet
  | template
  deriving DecidableEq, Repr

inductive Processor where
  | charset
  /-- Compiles a stylesheet with this extension, though not here. -/
  | stylesheet (extension : Text)
  | template
  /-- Stands for processors as such and processes nothing. -/
  | abstract
  deriving DecidableEq, Repr

namespace Processor

def family : Processor → Family
  | charset => .generic
  | stylesheet _ => .stylesheet
  | template => .template
  | abstract => .generic

def isStylesheet (processor : Processor) : Bool := processor.family == .stylesheet

def name : Processor → Text
  | charset => "charset".toList
  | stylesheet _ => "sass".toList
  | template => "handlebars".toList
  | abstract => "processor".toList

def templateExtension : Text := ".hbs".toList

def extension? : Processor → Option Text
  | charset => none
  | stylesheet extension => some extension
  | template => some templateExtension
  | abstract => none

variable (engine : Template.Engine) (bindings : Table) (path : Path)

def process (text : Text) : Processor → Except Fault Text
  | charset => .ok (Charset.normalize text)
  | stylesheet _ => .ok text
  | template => engine.process bindings path text
  | abstract => .error (.breach .notProvided)

def processAll (text : Text) : List Processor → Except Fault Text
  | [] => .ok text
  | processor :: rest => do processAll (← processor.process engine bindings path text) rest

end Processor

end Stylesheets
