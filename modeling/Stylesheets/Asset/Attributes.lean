import Stylesheets.Asset.Processor

/-!
# What a file name says

The extensions of a file name tell the type of the content and the engines
that the content goes through.
-/

namespace Stylesheets

inductive ContentType where
  | stylesheet
  | unknown
  deriving DecidableEq, Repr

structure Attributes where
  contentType : ContentType
  engines : List Processor
  deriving DecidableEq, Repr

namespace ContentType

def text : ContentType → Text
  | stylesheet => "text/css".toList
  | unknown => "application/octet-stream".toList

def ofText (name : Text) : ContentType := if name = stylesheet.text then stylesheet else unknown

def preprocessors : ContentType → List Processor
  | stylesheet => [.charset]
  | unknown => []

end ContentType

namespace Attributes

def isLeading (c : Char) : Bool := c == '_' || c == '.'

def extensionChain (name : Text) : List Text :=
  ((((name.dropWhile isLeading).splitOn '.').drop 1).filter fun part => !part.isEmpty).map
    ('.' :: ·)

def plainExtension : Text := ".css".toList

def compiledExtensions : List Text := [".scss".toList, ".sass".toList]

def isStylesheetExtension (extension : Text) : Bool :=
  extension == plainExtension || compiledExtensions.elem extension

def engine? (extension : Text) : Option Processor :=
  if compiledExtensions.elem extension then some (.stylesheet extension)
  else if extension = Processor.templateExtension then some .template
  else none

def ofName (name : Text) : Attributes :=
  let chain := extensionChain name
  { contentType := if chain.any isStylesheetExtension then .stylesheet else .unknown
    engines := chain.filterMap engine? }

def processors (attributes : Attributes) : List Processor :=
  (attributes.contentType.preprocessors ++ attributes.engines.reverse).filter fun processor =>
    !processor.isStylesheet

end Attributes

end Stylesheets
