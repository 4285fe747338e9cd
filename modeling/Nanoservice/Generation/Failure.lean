import Nanoservice.Text.Raw

/-!
# Stages and failures of a generation

A generation passes through stages, and a failure has a code that says what went wrong. The code
decides the kind of a failure and whether the request itself is to blame.
-/

namespace Nanoservice

/-- A stage of a generation. -/
inductive Stage where
  | checkInput
  | translate
  | validate
  | install
  | done
  | failed
  deriving DecidableEq, Repr

/-- What a failure has to do with. -/
inductive FailureKind where
  | input
  | service
  | decode
  | validation
  deriving DecidableEq, Repr

/-- What went wrong. -/
inductive FailureCode where
  | emptyPrompt
  | missingCredential
  | serviceUnavailable
  | malformedResponse
  | invalidShape
  | danglingNodeReference
  | invalidEndpoint
  | duplicateName
  | invalidModel
  deriving DecidableEq, Repr

namespace Stage

/-- The name of a stage. -/
def name : Stage → String
  | .checkInput => "CHECK_INPUT"
  | .translate => "TRANSLATE"
  | .validate => "VALIDATE"
  | .install => "INSTALL"
  | .done => "DONE"
  | .failed => "FAILED"

/-- All stages. -/
def all : List Stage := [.checkInput, .translate, .validate, .install, .done, .failed]

/-- The stage of a name. -/
def ofName? (s : String) : Option Stage :=
  all.find? fun x => x.name == s

end Stage

namespace FailureKind

/-- The name of a failure kind. -/
def name : FailureKind → String
  | .input => "INPUT"
  | .service => "UPSTREAM"
  | .decode => "DECODE"
  | .validation => "VALIDATION"

end FailureKind

namespace FailureCode

/-- The name of a failure code. -/
def name : FailureCode → String
  | .emptyPrompt => "EmptyPrompt"
  | .missingCredential => "MissingCredential"
  | .serviceUnavailable => "ServiceUnavailable"
  | .malformedResponse => "MalformedResponse"
  | .invalidShape => "InvalidShape"
  | .danglingNodeReference => "DanglingNodeReference"
  | .invalidEndpoint => "InvalidEndpoint"
  | .duplicateName => "DuplicateName"
  | .invalidModel => "InvalidModel"

/-- All failure codes. -/
def all : List FailureCode :=
  [.emptyPrompt, .missingCredential, .serviceUnavailable, .malformedResponse, .invalidShape,
    .danglingNodeReference, .invalidEndpoint, .duplicateName, .invalidModel]

/-- The failure code of a name. -/
def ofName? (s : String) : Option FailureCode :=
  all.find? fun x => x.name == s

/-- The kind of a failure code. -/
def kind : FailureCode → FailureKind
  | .emptyPrompt | .missingCredential => .input
  | .serviceUnavailable => .service
  | .malformedResponse | .invalidShape => .decode
  | .danglingNodeReference | .invalidEndpoint | .duplicateName | .invalidModel => .validation

end FailureCode

/-- A failure: its code, its wording and the stage where it arose. -/
structure Failure where
  code : FailureCode
  message : RawText
  stage : Stage
  deriving DecidableEq, Repr

namespace Failure

/-- The kind of a failure. -/
def kind (f : Failure) : FailureKind :=
  f.code.kind

/-- The request itself is to blame for a failure. -/
def isInputFailure (f : Failure) : Bool :=
  f.kind == .input

end Failure

end Nanoservice
