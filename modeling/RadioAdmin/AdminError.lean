/-!
# Admin error codes

The codes with which nodes answer admin requests, by their wire spelling, and the three
classes that decide what is done about one. Spellings are exact; any other text is a code
of its own that nothing is known about.
-/
namespace RadioAdmin

inductive AdminErrorCode where
  | none
  | noRoute
  | gotNak
  | timeout
  | noInterface
  | maxRetransmit
  | noChannel
  | tooLarge
  | noResponse
  | dutyCycleLimit
  | badRequest
  | notAuthorized
  | pkiFailed
  | pkiUnknownPubkey
  | adminBadSessionKey
  | adminPublicKeyUnauthorized
  | rateLimitExceeded
  | unrecognized (spelling : String)
  deriving DecidableEq, Repr

/-- What an error code calls for. -/
inductive ErrorClass where
  /-- A retry after a fresh admin session. -/
  | recoverableSession
  /-- Keys that an operator has to install; no retry can succeed before. -/
  | requiresKeyConfiguration
  /-- The ordinary handling of errors. -/
  | unrelated
  deriving DecidableEq, Repr

namespace ErrorClass

def all : List ErrorClass := [.recoverableSession, .requiresKeyConfiguration, .unrelated]

def name : ErrorClass → String
  | .recoverableSession => "recoverable_session"
  | .requiresKeyConfiguration => "requires_key_configuration"
  | .unrelated => "unrelated"

/-- Whether a retry can succeed without an operator. -/
def isRetryable : ErrorClass → Bool
  | .recoverableSession | .unrelated => true
  | .requiresKeyConfiguration => false

/-- Whether an operator has to hear of the error. -/
def requiresOperator (c : ErrorClass) : Bool := c = .requiresKeyConfiguration

/-- Whether the error comes from keys or sessions. -/
def isPki (c : ErrorClass) : Bool := c ≠ .unrelated

end ErrorClass

namespace AdminErrorCode

/-- The codes with a spelling of their own. -/
def known : List AdminErrorCode :=
  [.none, .noRoute, .gotNak, .timeout, .noInterface, .maxRetransmit, .noChannel, .tooLarge,
    .noResponse, .dutyCycleLimit, .badRequest, .notAuthorized, .pkiFailed, .pkiUnknownPubkey,
    .adminBadSessionKey, .adminPublicKeyUnauthorized, .rateLimitExceeded]

def spelling : AdminErrorCode → String
  | .none => "NONE"
  | .noRoute => "NO_ROUTE"
  | .gotNak => "GOT_NAK"
  | .timeout => "TIMEOUT"
  | .noInterface => "NO_INTERFACE"
  | .maxRetransmit => "MAX_RETRANSMIT"
  | .noChannel => "NO_CHANNEL"
  | .tooLarge => "TOO_LARGE"
  | .noResponse => "NO_RESPONSE"
  | .dutyCycleLimit => "DUTY_CYCLE_LIMIT"
  | .badRequest => "BAD_REQUEST"
  | .notAuthorized => "NOT_AUTHORIZED"
  | .pkiFailed => "PKI_FAILED"
  | .pkiUnknownPubkey => "PKI_UNKNOWN_PUBKEY"
  | .adminBadSessionKey => "ADMIN_BAD_SESSION_KEY"
  | .adminPublicKeyUnauthorized => "ADMIN_PUBLIC_KEY_UNAUTHORIZED"
  | .rateLimitExceeded => "RATE_LIMIT_EXCEEDED"
  | .unrecognized spelling => spelling

/-- The code of a wire spelling. -/
def ofSpelling (text : String) : AdminErrorCode :=
  (known.find? fun code => code.spelling == text).getD (.unrecognized text)

def isKnown : AdminErrorCode → Bool
  | .unrecognized _ => false
  | _ => true

def errorClass : AdminErrorCode → ErrorClass
  | .adminBadSessionKey | .pkiFailed => .recoverableSession
  | .pkiUnknownPubkey | .adminPublicKeyUnauthorized | .notAuthorized => .requiresKeyConfiguration
  | _ => .unrelated

/-- The codes that a fresh session clears. -/
def recoverable : List AdminErrorCode := [.adminBadSessionKey, .pkiFailed]

/-- The codes that wait for an operator. -/
def keyConfiguration : List AdminErrorCode :=
  [.pkiUnknownPubkey, .adminPublicKeyUnauthorized, .notAuthorized]

end AdminErrorCode

/-- The class of a wire spelling. -/
def classify (spelling : String) : ErrorClass := (AdminErrorCode.ofSpelling spelling).errorClass

def isRecoverable (spelling : String) : Bool := classify spelling = .recoverableSession

def needsKeyConfiguration (spelling : String) : Bool :=
  classify spelling = .requiresKeyConfiguration

def isPkiRelated (spelling : String) : Bool := (classify spelling).isPki

end RadioAdmin
