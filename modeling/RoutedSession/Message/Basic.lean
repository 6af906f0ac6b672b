import RoutedSession.Gzip.Member
import RoutedSession.RouteTable
import RoutedSession.Varint

namespace RoutedSession

/-- What a message is for. -/
inductive MessageKind where
  /-- The client asks for an answer. -/
  | request
  /-- The client tells something. -/
  | notify
  /-- The server answers a request. -/
  | response
  /-- The server tells something. -/
  | push
  deriving DecidableEq, Repr

namespace MessageKind

/-- The number that stands for a kind. -/
def code : MessageKind → UInt8
  | request => 0
  | notify => 1
  | response => 2
  | push => 3

/-- The kind that a number stands for. -/
def ofCode? : UInt8 → Option MessageKind
  | 0 => some request
  | 1 => some notify
  | 2 => some response
  | 3 => some push
  | _ => none

def hasId : MessageKind → Bool
  | request | response => true
  | notify | push => false

def hasRoute : MessageKind → Bool
  | request | notify | push => true
  | response => false

@[simp] theorem ofCode?_code (kind : MessageKind) : ofCode? kind.code = some kind := by
  cases kind <;> rfl

end MessageKind

/-- A message. A field that the kind does not carry is not written. -/
structure Message where
  kind : MessageKind
  id : UInt32 := 0
  route : String := ""
  /-- The content, decompressed. -/
  payload : Bytes := []
  /-- The answer tells of a failure. -/
  isError : Bool := false
  /-- The content arrived compressed. -/
  compressed : Bool := false
  deriving DecidableEq, Repr

/-- Why bytes are not a message. -/
inductive DecodeError where
  /-- The bytes end inside the flags, the id or the route. -/
  | truncated
  /-- No kind has this number. -/
  | invalidKind (code : UInt8)
  /-- The id does not fit 32 bits. -/
  | idOverflow
  /-- The table has no route with this code. -/
  | unknownRoute (code : RouteCode)
  /-- The route is no UTF-8. -/
  | invalidRoute
  /-- The content is said to be compressed, and cannot be decompressed. -/
  | inflate (reason : GzipError)
  deriving DecidableEq, Repr

namespace DecodeError

def message : DecodeError → String
  | truncated => "truncated message"
  | invalidKind code => s!"invalid message kind: {code}"
  | idOverflow => "message id varint overflows u32"
  | unknownRoute code => s!"route code {code} not found in dictionary"
  | invalidRoute => "route is not valid UTF-8"
  | inflate reason => "failed to inflate payload: " ++ reason.message

def ofFault : Varint.Fault → DecodeError
  | .truncated => truncated
  | .overflow => idOverflow

end DecodeError

end RoutedSession
