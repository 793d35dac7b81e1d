import Neoethos.DatasetReceipt

namespace Neoethos

open Fallible

abbrev SweepId := Nat
abbrev SessionId := String

structure QuoteCoverageRequestIdentityMaterial where
  schema : String
  sessionId : SessionId
  window : OosWindow
  sweep : SweepId
  slot : Nat
  candidateConfigHash : String
  datasetReceipt : DatasetReceipt
  portfolioIdentitySha256 : String
  effectiveSearchConfigHash : String
  batchCount : Nat
  geneCount : Nat
  fixedStopOnly : Bool
  deriving DecidableEq

structure QuoteCoverageRequest extends QuoteCoverageRequestIdentityMaterial where
  requestIdentitySha256 : String
  deriving DecidableEq

structure QuoteCoverageReadyIdentityMaterial where
  schema : String
  requestIdentitySha256 : String
  sessionId : SessionId
  sweep : SweepId
  slot : Nat
  candidateConfigHash : String
  coverageReceiptSha256 : String
  deriving DecidableEq

structure QuoteCoverageReady extends QuoteCoverageReadyIdentityMaterial where
  readyIdentitySha256 : String
  deriving DecidableEq

inductive QuoteCoverageErrorCode
  | invalidIdentity
  | unsupportedV1Shape
  | requestTooLarge
  | serializationFailed
  deriving DecidableEq

inductive QuoteCoverageError
  | foreignSchema (schema : String)
  | notOneBatchWithFixedStops
  | windowDetached
  | invalidReceipt (error : ReceiptError)
  | textBounds (name : String)
  | notLowerHex (name : String)
  | aboveCap (count : Nat)
  | writerRejected
  | hashingFailed
  | requestIdentity (stored expected : String)
  | foreignReady
  | readyIdentity (stored expected : String)
  deriving DecidableEq

def QuoteCoverageError.code : QuoteCoverageError → QuoteCoverageErrorCode
  | foreignSchema _ | notOneBatchWithFixedStops | windowDetached | invalidReceipt _ | textBounds _ =>
    .unsupportedV1Shape
  | notLowerHex _ | requestIdentity _ _ | foreignReady | readyIdentity _ _ => .invalidIdentity
  | aboveCap _ | writerRejected => .requestTooLarge
  | hashingFailed => .serializationFailed

def QUOTE_COVERAGE_REQUEST_SCHEMA : String := "neoethos.autoresearch.quote-coverage-request.v1"
def QUOTE_COVERAGE_READY_SCHEMA : String := "neoethos.autoresearch.quote-coverage-ready.v1"
def MAX_QUOTE_COVERAGE_REQUEST_BYTES : Nat := 1024 * 1024
def REQUEST_ID_DOMAIN : List UInt8 :=
  utf8 "neoethos.autoresearch.quote-coverage-request.identity.v1\x00"
def READY_ID_DOMAIN : List UInt8 :=
  utf8 "neoethos.autoresearch.quote-coverage-ready.identity.v1\x00"

/-- `serde_json` in its compact form, and SHA-256 in lower-case hexadecimal. -/
structure CompactHash where
  requestJson : QuoteCoverageRequest → List UInt8
  requestMaterialJson : QuoteCoverageRequestIdentityMaterial → List UInt8
  readyMaterialJson : QuoteCoverageReadyIdentityMaterial → List UInt8
  sha256 : List UInt8 → String

def validateBoundedText (name value : String) : Except QuoteCoverageError Unit :=
  refuse (value = "" ∨ 256 < value.utf8ByteSize) (.textBounds name)

def validateLowerHexSha256 (name value : String) : Except QuoteCoverageError Unit :=
  refuse (value.utf8ByteSize ≠ 64 ∨
    ¬(utf8 value).all fun byte => (48 ≤ byte && byte ≤ 57) || (97 ≤ byte && byte ≤ 102))
    (.notLowerHex name)

/-- The writer hashes what it is given, and takes no more than the cap. -/
def CompactHash.hashCompactJson (hash : CompactHash) (domain json : List UInt8) :
    Except QuoteCoverageError String := do
  refuse (MAX_QUOTE_COVERAGE_REQUEST_BYTES < domain.length) .writerRejected
  refuse (MAX_QUOTE_COVERAGE_REQUEST_BYTES < domain.length + json.length) .hashingFailed
  return hash.sha256 (domain ++ json)

namespace QuoteCoverageRequest

variable (hash : CompactHash) (request : QuoteCoverageRequest)

def validateShapeWithoutIdentity : Except QuoteCoverageError Unit := do
  refuse (request.schema ≠ QUOTE_COVERAGE_REQUEST_SCHEMA) (.foreignSchema request.schema)
  refuse (request.batchCount ≠ 1 ∨ request.geneCount = 0 ∨ request.fixedStopOnly = false)
    .notOneBatchWithFixedStops
  refuse (request.window.endMs < request.window.startMs ∨
    request.datasetReceipt.oosWindow ≠ request.window) .windowDetached
  request.datasetReceipt.validate.mapError .invalidReceipt
  validateBoundedText "candidate_config_hash" request.candidateConfigHash
  validateBoundedText "effective_search_config_hash" request.effectiveSearchConfigHash
  validateLowerHexSha256 "portfolio_identity_sha256" request.portfolioIdentitySha256
  refuse (MAX_QUOTE_COVERAGE_REQUEST_BYTES < (hash.requestJson request).length)
    (.aboveCap (hash.requestJson request).length)

def computeIdentitySha256 : Except QuoteCoverageError String :=
  hash.hashCompactJson REQUEST_ID_DOMAIN
    (hash.requestMaterialJson request.toQuoteCoverageRequestIdentityMaterial)

def validate : Except QuoteCoverageError Unit := do
  request.validateShapeWithoutIdentity hash
  let expected ← request.computeIdentitySha256 hash
  refuse (request.requestIdentitySha256 ≠ expected)
    (.requestIdentity request.requestIdentitySha256 expected)

end QuoteCoverageRequest

namespace QuoteCoverageReady

variable (hash : CompactHash) (ready : QuoteCoverageReady)

def computeIdentitySha256 : Except QuoteCoverageError String :=
  hash.hashCompactJson READY_ID_DOMAIN
    (hash.readyMaterialJson ready.toQuoteCoverageReadyIdentityMaterial)

def validateAgainst (request : QuoteCoverageRequest) : Except QuoteCoverageError Unit := do
  request.validate hash
  refuse (ready.schema ≠ QUOTE_COVERAGE_READY_SCHEMA ∨
    ready.requestIdentitySha256 ≠ request.requestIdentitySha256 ∨
    ready.sessionId ≠ request.sessionId ∨ ready.sweep ≠ request.sweep ∨
    ready.slot ≠ request.slot ∨ ready.candidateConfigHash ≠ request.candidateConfigHash)
    .foreignReady
  validateLowerHexSha256 "coverage_receipt_sha256" ready.coverageReceiptSha256
  let expected ← ready.computeIdentitySha256 hash
  refuse (ready.readyIdentitySha256 ≠ expected)
    (.readyIdentity ready.readyIdentitySha256 expected)

end QuoteCoverageReady

inductive QuoteCoverageState
  | awaiting (request : QuoteCoverageRequest)
  | ready (request : QuoteCoverageRequest) (coverage : QuoteCoverageReady)
  deriving DecidableEq

section Identity

variable {hash : CompactHash} {request other : QuoteCoverageRequest}

/-- Identity digests tell apart whatever they are taken of. -/
structure CompactHash.Injective (hash : CompactHash) : Prop where
  sha256 : Function.Injective hash.sha256
  requestMaterialJson : Function.Injective hash.requestMaterialJson

theorem validate_identity (h : request.validate hash = .ok ()) :
    request.requestIdentitySha256 = hash.sha256 (REQUEST_ID_DOMAIN ++
      hash.requestMaterialJson request.toQuoteCoverageRequestIdentityMaterial) := by
  rw [QuoteCoverageRequest.validate, check_ok_iff, bind_ok_iff] at h
  obtain ⟨-, expected, hexpected, hsame⟩ := h
  rw [QuoteCoverageRequest.computeIdentitySha256, CompactHash.hashCompactJson, check_ok_iff,
    check_ok_iff] at hexpected
  obtain rfl := Except.ok.inj hexpected.2.2
  rw [refuse_ok_iff, not_not] at hsame
  exact hsame

theorem request_eq_of_identity (hhash : hash.Injective) (hrequest : request.validate hash = .ok ())
    (hother : other.validate hash = .ok ())
    (h : request.requestIdentitySha256 = other.requestIdentitySha256) : request = other := by
  have hbytes := hhash.sha256
    ((validate_identity hrequest).symm.trans (h.trans (validate_identity hother)))
  have hmaterial := hhash.requestMaterialJson (List.append_cancel_left hbytes)
  cases request
  cases other
  simp only at hmaterial h
  rw [hmaterial, h]

theorem validateAgainst_ok {ready : QuoteCoverageReady}
    (h : ready.validateAgainst hash request = .ok ()) :
    request.validate hash = .ok () ∧
      ready.requestIdentitySha256 = request.requestIdentitySha256 := by
  rw [QuoteCoverageReady.validateAgainst, check_ok_iff, check_ok_iff, refuse_ok_iff] at h
  obtain ⟨hrequest, hsame, -⟩ := h
  simp only [not_or, not_not] at hsame
  exact ⟨hrequest, hsame.2.1⟩

theorem request_eq_of_ready (hhash : hash.Injective) {ready : QuoteCoverageReady}
    (hrequest : ready.validateAgainst hash request = .ok ())
    (hother : ready.validateAgainst hash other = .ok ()) : request = other := by
  obtain ⟨hvalid, hidentity⟩ := validateAgainst_ok hrequest
  obtain ⟨hvalid', hidentity'⟩ := validateAgainst_ok hother
  exact request_eq_of_identity hhash hvalid hvalid' (hidentity.symm.trans hidentity')

end Identity

end Neoethos
