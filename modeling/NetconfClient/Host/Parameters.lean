/-
  NetconfClient/Host/Parameters.lean
  ==================================
  **What an ssh configuration says about a host.**

  Nothing has to be said.  Where two parts of a configuration apply, what the
  earlier one says stands (`Parameters.orElse`).
-/
import NetconfClient.Fault

namespace NetconfClient

/-- The settings for a host, as far as they are given. -/
structure Parameters where
  /-- The name or number to connect to. -/
  hostName : Option String
  user : Option String
  port : Option Nat
  /-- The files with keys to log in with. -/
  identityFiles : Option (List String)
  compression : Option Bool
  tcpKeepAlive : Option Bool
  /-- Seconds between signs of life. -/
  serverAliveInterval : Option Nat
  /-- Seconds to wait for a connection. -/
  connectTimeout : Option Nat
  kexAlgorithms : Option (List String)
  hostKeyAlgorithms : Option (List String)
  ciphers : Option (List String)
  macs : Option (List String)
  deriving DecidableEq, Repr

namespace Parameters

/-- Nothing is said. -/
def empty : Parameters :=
  ⟨none, none, none, none, none, none, none, none, none, none, none, none⟩

/-- What `p` says, and what `q` says where `p` is silent. -/
def orElse (p q : Parameters) : Parameters where
  hostName := p.hostName <|> q.hostName
  user := p.user <|> q.user
  port := p.port <|> q.port
  identityFiles := p.identityFiles <|> q.identityFiles
  compression := p.compression <|> q.compression
  tcpKeepAlive := p.tcpKeepAlive <|> q.tcpKeepAlive
  serverAliveInterval := p.serverAliveInterval <|> q.serverAliveInterval
  connectTimeout := p.connectTimeout <|> q.connectTimeout
  kexAlgorithms := p.kexAlgorithms <|> q.kexAlgorithms
  hostKeyAlgorithms := p.hostKeyAlgorithms <|> q.hostKeyAlgorithms
  ciphers := p.ciphers <|> q.ciphers
  macs := p.macs <|> q.macs

@[simp] theorem empty_orElse (p : Parameters) : empty.orElse p = p := rfl

@[simp] theorem orElse_empty (p : Parameters) : p.orElse empty = p := by
  cases p
  simp [orElse, empty]

end Parameters

end NetconfClient
