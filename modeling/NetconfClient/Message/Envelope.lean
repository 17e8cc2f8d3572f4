/-
  NetconfClient/Message/Envelope.lean
  ===================================
  **Requests on the wire.**

  An operation is sent inside an `rpc` element that carries the identifier of
  the request.
-/
import NetconfClient.Message.Hello
import NetconfClient.Text.Blank

namespace NetconfClient

open Text Markup

/-- An operation as a request. -/
def rpcEnvelope (id operation : String) : String :=
  "<rpc message-id=\"" ++ escapeString id ++ "\" xmlns=\"" ++ baseNamespace ++ "\">" ++
    trimString operation ++ "</rpc>"

end NetconfClient
