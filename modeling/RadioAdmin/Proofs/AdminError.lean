import Mathlib.Logic.Function.Basic
import RadioAdmin.AdminError

/-!
# Spellings of admin error codes

A spelling is read as the code that is written so, or kept as it is when there is none. So what is
read is written as it was, a code comes back from its spelling unless it hides a known one, and the
class of a spelling is told by a few exact texts: the two lists of codes that call for something
are the two classes of what is not an ordinary error.
-/
namespace RadioAdmin.AdminErrorCode

/-- Each code with a spelling of its own is read from that spelling. -/
theorem ofSpelling_of_known {code : AdminErrorCode} (h : code ∈ known) :
    ofSpelling code.spelling = code := by
  revert code
  decide

/-- What is read is written as it was. -/
theorem spelling_ofSpelling (text : String) : (ofSpelling text).spelling = text := by
  rw [ofSpelling]
  cases hfound : known.find? fun code => code.spelling == text with
  | none => rfl
  | some code =>
    have hspelling := List.find?_some hfound
    exact beq_iff_eq.mp hspelling

/-- The code that an exact text names. -/
def named : String → AdminErrorCode
  | "NONE" => .none
  | "NO_ROUTE" => .noRoute
  | "GOT_NAK" => .gotNak
  | "TIMEOUT" => .timeout
  | "NO_INTERFACE" => .noInterface
  | "MAX_RETRANSMIT" => .maxRetransmit
  | "NO_CHANNEL" => .noChannel
  | "TOO_LARGE" => .tooLarge
  | "NO_RESPONSE" => .noResponse
  | "DUTY_CYCLE_LIMIT" => .dutyCycleLimit
  | "BAD_REQUEST" => .badRequest
  | "NOT_AUTHORIZED" => .notAuthorized
  | "PKI_FAILED" => .pkiFailed
  | "PKI_UNKNOWN_PUBKEY" => .pkiUnknownPubkey
  | "ADMIN_BAD_SESSION_KEY" => .adminBadSessionKey
  | "ADMIN_PUBLIC_KEY_UNAUTHORIZED" => .adminPublicKeyUnauthorized
  | "RATE_LIMIT_EXCEEDED" => .rateLimitExceeded
  | text => .unrecognized text

theorem mem_known_iff (code : AdminErrorCode) : code ∈ known ↔ code.isKnown = true := by
  cases code <;> simp [known, isKnown]

/-- A text stays unrecognized exactly when no known code is written so. -/
theorem ofSpelling_eq_unrecognized_iff (text : String) :
    ofSpelling text = .unrecognized text ↔ ∀ code ∈ known, code.spelling ≠ text := by
  rw [ofSpelling]
  cases hfound : known.find? fun code => code.spelling == text with
  | none =>
    refine iff_of_true rfl fun code hcode he => ?_
    exact List.find?_eq_none.mp hfound code hcode (beq_iff_eq.mpr he)
  | some code =>
    have hknown : code ∈ known := List.mem_of_find?_eq_some hfound
    have hspelling := List.find?_some hfound
    refine iff_of_false ?_ fun hnone => hnone code hknown (beq_iff_eq.mp hspelling)
    rintro rfl
    exact Bool.false_ne_true ((mem_known_iff _).mp hknown)

/-- Looking a text up among the spellings gives the code that it names. -/
theorem ofSpelling_eq_named (text : String) : ofSpelling text = named text := by
  rw [named.eq_def]
  split
  case h_18 =>
    refine (ofSpelling_eq_unrecognized_iff text).mpr ?_
    simp_all [known, spelling, eq_comm]
  all_goals rfl

/-- A code comes back from its spelling unless it is unrecognized and written as a known one. -/
theorem ofSpelling_spelling_iff (code : AdminErrorCode) :
    ofSpelling code.spelling = code ↔
      ¬ ∃ other : AdminErrorCode, other.isKnown = true ∧ code = .unrecognized other.spelling := by
  cases hknown : code.isKnown with
  | true =>
    refine iff_of_true (ofSpelling_of_known ((mem_known_iff code).mpr hknown)) ?_
    rintro ⟨other, -, rfl⟩
    cases hknown
  | false =>
    cases code with
    | unrecognized text =>
      rw [spelling, ofSpelling_eq_unrecognized_iff, not_exists]
      refine forall_congr' fun other => ?_
      rw [mem_known_iff, unrecognized.injEq, not_and, ne_comm]
    | _ => cases hknown

theorem mem_recoverable_iff (code : AdminErrorCode) :
    code ∈ recoverable ↔ code.errorClass = .recoverableSession := by
  cases code <;> simp [recoverable, errorClass]

theorem mem_keyConfiguration_iff (code : AdminErrorCode) :
    code ∈ keyConfiguration ↔ code.errorClass = .requiresKeyConfiguration := by
  cases code <;> simp [keyConfiguration, errorClass]

/-- Keys are called for by the exact spellings of three codes. -/
theorem errorClass_ofSpelling_iff (text : String) :
    (ofSpelling text).errorClass = .requiresKeyConfiguration ↔
      text ∈ ["PKI_UNKNOWN_PUBKEY", "ADMIN_PUBLIC_KEY_UNAUTHORIZED", "NOT_AUTHORIZED"] := by
  have hspellings : keyConfiguration.map spelling =
      ["PKI_UNKNOWN_PUBKEY", "ADMIN_PUBLIC_KEY_UNAUTHORIZED", "NOT_AUTHORIZED"] := rfl
  rw [← mem_keyConfiguration_iff, ← hspellings]
  constructor
  · intro h
    exact List.mem_map.mpr ⟨_, h, spelling_ofSpelling text⟩
  · intro h
    obtain ⟨code, hcode, rfl⟩ := List.mem_map.mp h
    have hknown : keyConfiguration ⊆ known := by decide
    rw [ofSpelling_of_known (hknown hcode)]
    exact hcode

theorem isRecoverable_iff (text : String) :
    isRecoverable text = true ↔ ofSpelling text ∈ recoverable := by
  rw [mem_recoverable_iff, isRecoverable, decide_eq_true_iff, classify]

theorem needsKeyConfiguration_iff (text : String) :
    needsKeyConfiguration text = true ↔ ofSpelling text ∈ keyConfiguration := by
  rw [mem_keyConfiguration_iff, needsKeyConfiguration, decide_eq_true_iff, classify]

/-- What comes from keys or sessions is of one of the two other classes. -/
theorem isPkiRelated_eq (text : String) :
    isPkiRelated text = (isRecoverable text || needsKeyConfiguration text) := by
  rw [isPkiRelated, isRecoverable, needsKeyConfiguration]
  cases classify text <;> rfl

/-- A text is read as the code that it names and written as it was, so no two texts are read as the
same code; and a code comes back from its spelling unless it is unrecognized and written as a known
one. The class of a text is told by the two lists of codes, which no text is in both of, and a
retry can succeed in the classes that call for no operator. -/
theorem spellings_and_classes_agree :
    (∀ text, ofSpelling text = named text ∧ (ofSpelling text).spelling = text) ∧
    Function.Injective ofSpelling ∧
    (∀ code : AdminErrorCode, ofSpelling code.spelling = code ↔
      ¬ ∃ other : AdminErrorCode, other.isKnown = true ∧ code = .unrecognized other.spelling) ∧
    (∀ text,
      (isRecoverable text = true ↔ ofSpelling text ∈ recoverable) ∧
      (needsKeyConfiguration text = true ↔ ofSpelling text ∈ keyConfiguration) ∧
      ¬ (isRecoverable text = true ∧ needsKeyConfiguration text = true) ∧
      isPkiRelated text = (isRecoverable text || needsKeyConfiguration text)) ∧
    ∀ errorClass : ErrorClass, errorClass.isRetryable = !errorClass.requiresOperator := by
  refine ⟨fun text => ⟨ofSpelling_eq_named text, spelling_ofSpelling text⟩,
    Function.LeftInverse.injective spelling_ofSpelling, ofSpelling_spelling_iff, ?_, ?_⟩
  · intro text
    refine ⟨isRecoverable_iff text, needsKeyConfiguration_iff text, ?_, isPkiRelated_eq text⟩
    rw [isRecoverable_iff, needsKeyConfiguration_iff]
    rintro ⟨hrecoverable, hkey⟩
    have hapart : ∀ code ∈ recoverable, code ∉ keyConfiguration := by decide
    exact hapart _ hrecoverable hkey
  · intro errorClass
    cases errorClass <;> rfl

end RadioAdmin.AdminErrorCode
