import BlockFsck.Health
import BlockFsck.Http.Address
import BlockFsck.Json.Reader
import BlockFsck.Path

/-!
# Failures

Every way in which an operation can fail, as its cause. The kind of a failure is what callers act
on, and the message is what they show.
-/

namespace BlockFsck

/-- The kinds that callers tell apart. -/
inductive FailureKind
  | pathNotFound
  | entryNotFound
  | invalidPath
  | entryExists
  | notDirectory
  | isDirectory
  | unknownBlock
  | unknownNode
  | namespaceOther
  | checkOther
  | malformedBlock
  | unavailable
  | quarantine
  | invalidArgument
  | notConverged
  | usage
  | invalidValue
  | unexpected
  | readFailed
  | protocolBroken
  | invalidAnswer
  | notJson
  | undecodable
  | tooNested
  | badAddress
  | notObject
  | wrongType
  | overflow
  deriving Repr, DecidableEq

namespace FailureKind

/-- The entry that was asked for is not there. -/
def isMissing (k : FailureKind) : Bool := k = .pathNotFound || k = .entryNotFound

end FailureKind

/-- Why the namespace refused an operation. -/
inductive NamespaceError
  | badPath (cause : PathError)
  | notFound (path : String)
  | notFile (path : String)
  | notDirectory (path : String)
  | parentNotDirectory (path : String)
  | root
  | taken (path : String)
  | notOpen (path : String)
  | leased (path holder : String)
  | unknownBlock (id : String)
  | unknownNode (node : String)
  | noReplica (block node : String)
  deriving Repr, DecidableEq

namespace NamespaceError

def kind : NamespaceError → FailureKind
  | .badPath _ => .invalidPath
  | .notFound _ => .entryNotFound
  | .notFile _ => .isDirectory
  | .notDirectory _ => .notDirectory
  | .parentNotDirectory _ => .notDirectory
  | .root => .entryExists
  | .taken _ => .entryExists
  | .notOpen _ => .entryExists
  | .leased _ _ => .entryExists
  | .unknownBlock _ => .unknownBlock
  | .unknownNode _ => .unknownNode
  | .noReplica _ _ => .unknownNode

def message : NamespaceError → String
  | .badPath cause => cause.message
  | .notFound path => s!"No such file or directory: {path}"
  | .notFile path => s!"Not a file: {path}"
  | .notDirectory path => s!"Not a directory: {path}"
  | .parentNotDirectory path => s!"Parent of {path} is not a directory"
  | .root => "Cannot create the root directory"
  | .taken path => s!"Path already exists: {path}"
  | .notOpen path => s!"File is not open for write: {path}"
  | .leased path holder => s!"{path} is already leased by {holder}"
  | .unknownBlock id => s!"Unknown block {id}"
  | .unknownNode node => s!"Unknown storage node {node}"
  | .noReplica block node => s!"Block {block} has no replica on {node}"

end NamespaceError

/-- Why a corrupt file could not be moved or deleted. -/
inductive QuarantineError
  | inside (path quarantine : String)
  | noFreeName (path : String) (attempts : Int)
  | noDirectory (directory : String)
  | notMoved (path destination : String)
  | notDeleted (path : String)
  deriving Repr, DecidableEq

def QuarantineError.message : QuarantineError → String
  | .inside path quarantine => s!"'{path}' is already inside {quarantine}"
  | .noFreeName path attempts =>
    s!"No free quarantine name for '{path}' after {attempts} attempts"
  | .noDirectory directory => s!"Cannot create quarantine directory {directory}"
  | .notMoved path destination => s!"Failed to move '{path}' to '{destination}'"
  | .notDeleted path => s!"Failed to delete '{path}'"

/-- What is wrong with the arguments of a check. -/
inductive ArgumentError
  | badPath (cause : PathError)
  | moveAndDelete
  | negativeCount (count : Int)
  deriving Repr, DecidableEq

def ArgumentError.message : ArgumentError → String
  | .badPath cause => cause.message
  | .moveAndDelete => "-move and -delete cannot be combined"
  | .negativeCount count => s!"Corrupt file count must not be negative: {count}"

/-- Why an operation failed. `told` is a failure that arrived from outside with its own text. -/
inductive Failure
  | badPath (cause : PathError)
  | pathNotFound (path : String)
  | namespaceRefused (cause : NamespaceError)
  | malformed (block : Malformed)
  | unavailable (reason : String)
  | quarantine (cause : QuarantineError)
  | argument (cause : ArgumentError)
  | reportClosed
  | overflow
  | unreadable (cause : Json.Unreadable)
  | badAddress (cause : Http.AddressError)
  | tooDeep (path : String)
  | told (kind : FailureKind) (text : String)
  deriving Repr, DecidableEq

namespace Failure

def kind : Failure → FailureKind
  | .badPath _ => .invalidValue
  | .pathNotFound _ => .pathNotFound
  | .namespaceRefused cause => cause.kind
  | .malformed _ => .malformedBlock
  | .unavailable _ => .unavailable
  | .quarantine _ => .quarantine
  | .argument _ => .invalidArgument
  | .reportClosed => .unexpected
  | .overflow => .overflow
  | .unreadable (.malformed _) => .notJson
  | .unreadable (.tooManyDigits _) => .invalidValue
  | .unreadable (.tooDeep _) => .tooNested
  | .unreadable (.undecodable _) => .undecodable
  | .badAddress _ => .badAddress
  | .tooDeep _ => .unexpected
  | .told kind _ => kind

def message : Failure → String
  | .badPath cause => cause.message
  | .pathNotFound path => s!"Path '{path}' does not exist"
  | .namespaceRefused cause => cause.message
  | .malformed block => block.message
  | .unavailable reason => reason
  | .quarantine cause => cause.message
  | .argument cause => cause.message
  | .reportClosed => "Report already finalized"
  | .overflow => "int too large to convert to float"
  | .unreadable cause => cause.message
  | .badAddress cause => cause.message
  | .tooDeep path => s!"Directory nesting too deep at {path}"
  | .told _ text => text

/-- The entry that was asked for is not there. -/
def isMissing (f : Failure) : Bool := f.kind.isMissing

end Failure

end BlockFsck
