import Drift.Core.State
import Drift.Rdp.Resize

/-!
# Connecting a leg

What a leg asks for, how failures are classified, how the leaf certificate is checked, and the
sequence of redirected legs. The sockets, TLS and the protocol library are not modelled: their
failures arrive as an `IoFailure` or a `ConnectorFailure`.
-/

namespace Drift.Rdp

/-! ### Failures -/

/-- An `io::Error`, as far as the classification looks at it. -/
inductive IoFailure where
  | hostUnreachable
  | timedOut
  | unexpectedEof
  | connectionReset
  | connectionAborted
  | brokenPipe
  | other
  deriving DecidableEq

def IoFailure.isDropped : IoFailure → Bool
  | unexpectedEof | connectionReset | connectionAborted | brokenPipe => true
  | hostUnreachable | timedOut | other => false

def classifyIoError (error : IoFailure) (stage : ConnectStage) : DisconnectReason :=
  if error = .hostUnreachable then .localNetworkDenied
  else if stage = .nla ∧ error.isDropped then .authFailed
  else if error = .timedOut then .timeout
  else if stage = .tcp then .network
  else if error = .unexpectedEof then .tlsEof
  else .network

inductive ConnectorFailure where
  | rdstlsAuthFailed (code : UInt32)
  | credssp
  | accessDenied
  | io (error : IoFailure)
  | other (detail : String)
  deriving DecidableEq

def classifyConnectorError (error : ConnectorFailure) (stage : ConnectStage) : DisconnectReason :=
  match error with
  | .rdstlsAuthFailed code => .rdstlsFailed code
  | .credssp | .accessDenied => .authFailed
  | .io error => classifyIoError error stage
  | .other detail => .protocolError detail

/-- How a stage of `connect_leg` fails. -/
inductive ConnectFailure where
  | io (error : IoFailure)
  | connector (error : ConnectorFailure)
  | timeout
  deriving DecidableEq

def ConnectFailure.reason (f : ConnectFailure) (stage : ConnectStage) : DisconnectReason :=
  match f with
  | io error => classifyIoError error stage
  | connector error => classifyConnectorError error stage
  | timeout => .timeout

/-! ### Certificates -/

abbrev CertFingerprint := Bytes

inductive CertExpectation where
  | pinned (pin : CertFingerprint)
  | trustOnFirstUse
  | exact (der : Bytes)
  deriving DecidableEq

inductive CertVerdict where
  | trusted
  | mismatch
  | unknown (fingerprint : CertFingerprint)
  deriving DecidableEq

def checkCertificate (ofDer : Bytes → CertFingerprint) (expectation : CertExpectation)
    (leafDer : Bytes) : CertVerdict :=
  match expectation with
  | .pinned pin => if pin = ofDer leafDer then .trusted else .mismatch
  | .exact der => if der = leafDer then .trusted else .mismatch
  | .trustOnFirstUse => .unknown (ofDer leafDer)

inductive CertificateRole where
  | server
  | redirectTarget
  deriving DecidableEq

/-! ### Legs and redirections -/

structure OneTimeCredentials where
  redirectionGuid : Bytes
  username : String
  domain : String
  password : Bytes
  deriving DecidableEq

/-- A Server Redirection PDU; the target certificate is the container as far as it was decoded. -/
structure ServerRedirectionPdu where
  redirectionGuid : Option Bytes
  username : Option String
  domain : Option String
  password : Option Bytes
  targetNetAddress : Option String
  loadBalanceInfo : Option Bytes
  targetCertificate : Except String (Option Bytes)

def OneTimeCredentials.fromRedirection (pdu : ServerRedirectionPdu) : Option OneTimeCredentials := do
  let guid ← pdu.redirectionGuid
  let username ← pdu.username
  let password ← pdu.password
  pure ⟨guid, username, pdu.domain.getD "", password⟩

inductive LegAuth where
  | nla (username password : String)
  | rdstls (credentials : OneTimeCredentials)
  deriving DecidableEq

def LegAuth.stage : LegAuth → ConnectStage
  | nla _ _ => .nla
  | rdstls _ => .rdstls

structure LegRequest where
  leg : Nat
  mode : ConnectMode
  host : String
  port : UInt16
  tlsServerName : String
  auth : LegAuth
  expectation : CertExpectation
  role : CertificateRole
  routingToken : Option String
  desktop : Size
  scale : Nat
  deriving DecidableEq

structure NextLeg where
  leg : Nat
  host : String
  port : UInt16
  routingToken : Option String
  credentials : OneTimeCredentials
  targetCertificate : Option Bytes
  deriving DecidableEq

structure RedirectLoop where
  mode : ConnectMode
  host : String
  port : UInt16
  leg : Nat
  deriving DecidableEq

/-- Drops the trailing characters of a kind. -/
def trimEnd (trimmed : Char → Bool) (text : String) : String :=
  .ofList (text.toList.reverse.dropWhile trimmed).reverse

def isPrintable (c : Char) : Bool := 0x20 ≤ c.toNat ∧ c.toNat ≤ 0x7E

def routingToken (loadBalanceInfo : Bytes) : Option String :=
  (String.fromUTF8? ⟨loadBalanceInfo.toArray⟩).bind fun text =>
    let token := trimEnd (fun c => c = '\r' ∨ c = '\n' ∨ c.toNat = 0) text
    if !token.isEmpty && token.toList.all isPrintable then some token else none

namespace RedirectLoop

def new (mode : ConnectMode) (host : String) (port : UInt16) : RedirectLoop := ⟨mode, host, port, 1⟩

def onActivated (r : RedirectLoop) (desktop : Size) (scale : Nat) : Option SessionState :=
  if r.mode = .remoteLogin ∧ r.leg = 1 then none
  else if r.mode = .remoteLogin ∧ r.leg = 2 then some .awaitingGreeterLogin
  else some (.connected desktop scale)

/-- The host of the next leg: a target address that is not empty replaces it. -/
def nextHost (r : RedirectLoop) (pdu : ServerRedirectionPdu) : String :=
  match pdu.targetNetAddress.map (trimEnd fun c => c.toNat = 0) with
  | none => r.host
  | some address => if address.isEmpty then r.host else address

def onRedirect (r : RedirectLoop) (pdu : ServerRedirectionPdu) :
    RedirectLoop × Except DisconnectReason NextLeg :=
  if maxRedirects ≤ r.leg - 1 then (r, .error .redirectLoop)
  else
    match OneTimeCredentials.fromRedirection pdu with
    | none =>
      (r, .error (.protocolError "Server Redirection PDU without one-time credentials"))
    | some credentials =>
      match pdu.targetCertificate with
      | .error e => (r, .error (.protocolError ("malformed redirect target certificate: " ++ e)))
      | .ok targetCertificate =>
        let r := { r with host := r.nextHost pdu, leg := r.leg + 1 }
        (r, .ok
          { leg := r.leg
            host := r.host
            port := r.port
            routingToken := pdu.loadBalanceInfo.bind Rdp.routingToken
            credentials := credentials
            targetCertificate := targetCertificate })

end RedirectLoop

end Drift.Rdp
