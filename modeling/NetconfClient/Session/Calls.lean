/-
  NetconfClient/Session/Calls.lean
  ================================
  **The calls that a session offers.**

  A call that sends a request makes up an identifier from its own number, so no
  two of the first 16 ^ 12 calls share one.
-/
import NetconfClient.Session.MessageId
import NetconfClient.Session.System

namespace NetconfClient.Session.System

/-- Begins the exchange of greetings. -/
def connect (s : System) : System := s.begin .greet

/-- Sends an operation and waits for the reply; the number of the call comes with it. -/
def call (s : System) (operation : String) : Nat × System :=
  (s.begun,
    s.begin (.ifOpen (.operation (messageId s.begun))
      (rpcEnvelope (messageId s.begun) operation)))

/-- Asks the peer to close the session, then closes it. -/
def closeSession (s : System) : Nat × System :=
  (s.begun,
    s.begin (.ifOpen (.farewell (messageId s.begun))
      (rpcEnvelope (messageId s.begun) "<close-session/>")))

/-- Closes the session. -/
def close (s : System) : Nat × System := (s.begun, s.begin .close)

/-- What a call has come to. -/
def result? (s : System) (number : Nat) : Option CallResult := s.results.lookup number

end NetconfClient.Session.System
