/-
  NetconfClient/Session/Config.lean
  =================================
  **The settings of a session.**
-/
import NetconfClient.Capability.Negotiation
import NetconfClient.Framing.Framer

namespace NetconfClient.Session

open Text

/-- The settings of a session. -/
structure Config where
  /-- The capabilities that the client announces, as full URIs or short forms. -/
  capabilities : List String
  /-- The longest wait for the greeting of the peer. -/
  helloTimeout : Duration
  /-- The longest wait for each part of closing. -/
  closeTimeout : Duration
  /-- The longest wait for a reply to an operation, if there is a limit. -/
  requestTimeout : Option Duration
  /-- The largest number of octets read at once; at least one. -/
  readSize : Nat
  /-- The largest message that is received, in octets. -/
  messageLimit : Nat
  /-- The number of messages that wait for the writer; at least one. -/
  queueDepth : Nat
  deriving DecidableEq, Repr

namespace Config

/-- The settings unless told otherwise. -/
def standard : Config where
  capabilities := [BaseVersion.v1_0.uri, BaseVersion.v1_1.uri]
  helloTimeout := .ofSeconds 30
  closeTimeout := .ofSeconds 10
  requestTimeout := none
  readSize := 8192
  messageLimit := Framer.defaultLimit
  queueDepth := 64

/-- Reads at least one octet at once. -/
def withReadSize (c : Config) (n : Nat) : Config := { c with readSize := max n 1 }

/-- Keeps room for at least one message. -/
def withQueueDepth (c : Config) (n : Nat) : Config := { c with queueDepth := max n 1 }

end Config

end NetconfClient.Session
