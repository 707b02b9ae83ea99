import ArcaEdi.Wsfe

/-!
# What a failed call says of the wire

`_classify_transport_exception` sees the class and the text of an exception. When
the exception occurred, and what was on the wire by then, it does not see.
-/

namespace ArcaEdi

/-! ## The exceptions of requests -/

/-- The classes of `requests.exceptions`, and one for all that are not there. -/
inductive RequestsClass
  | requestException | invalidJSONError | jsonDecodeError | httpError | connectionError
  | proxyError | sslError | timeout | connectTimeout | readTimeout | urlRequired
  | tooManyRedirects | missingSchema | invalidSchema | invalidURL | invalidHeader
  | invalidProxyURL | chunkedEncodingError | contentDecodingError | streamConsumedError
  | retryError | unrewindableBodyError | outside
  deriving DecidableEq, Repr

namespace RequestsClass

def bases : RequestsClass → List RequestsClass
  | requestException | outside => []
  | jsonDecodeError => [invalidJSONError]
  | proxyError | sslError => [connectionError]
  | connectTimeout => [connectionError, timeout]
  | readTimeout => [timeout]
  | invalidProxyURL => [invalidURL]
  | _ => [requestException]

/-- A class and its bases, up to `depth` steps away. -/
def ancestors (depth : Nat) (c : RequestsClass) : List RequestsClass :=
  match depth with
  | 0 => [c]
  | depth + 1 => c :: c.bases.flatMap (ancestors depth)

/-- `isinstance`: no class of requests is more than three steps below another. -/
def isInstance (c d : RequestsClass) : Bool := d ∈ c.ancestors 3

/-- The tests of `_classify_transport_exception`, in its order. -/
def exceptionClass (c : RequestsClass) : ExceptionClass :=
  if c.isInstance .readTimeout then .readTimeout
  else if c.isInstance .connectTimeout then .connectTimeout
  else if c.isInstance .connectionError then .connectionError
  else .other

theorem exceptionClass_connectTimeout {c : RequestsClass} :
    c.exceptionClass = .connectTimeout ↔ c.isInstance .connectTimeout := by
  cases c <;> decide

theorem exceptionClass_connectionError {c : RequestsClass} :
    c.exceptionClass = .connectionError ↔
      c.isInstance .connectionError ∧ ¬ c.isInstance .connectTimeout := by
  cases c <;> decide

end RequestsClass

/-! ## When it occurred -/

/-- Where the connection was when it failed. -/
inductive TransportStage
  | connecting | handshake | sendingBody | waiting | reading
  deriving DecidableEq, Repr

/-- Nothing of the request was sent. -/
def TransportStage.beforeBody : TransportStage → Bool
  | .connecting | .handshake => true
  | .sendingBody | .waiting | .reading => false

/-- All of it was sent. -/
def TransportStage.afterBody : TransportStage → Bool
  | .waiting | .reading => true
  | .connecting | .handshake | .sendingBody => false

/-- An exception of the transport, as it really occurred. What requests and urllib3
promise of it comes with it. -/
structure Failure where
  cls : RequestsClass
  /-- `repr(exc)` -/
  text : String
  /-- `str(exc)` -/
  message : String
  stage : TransportStage
  /-- Bytes of the request body that were transmitted by then. -/
  bodySent : Nat
  unsent : stage.beforeBody → bodySent = 0
  sent : stage.afterBody → 0 < bodySent
  connect : cls.isInstance .connectTimeout → stage.beforeBody
  read : cls.isInstance .readTimeout → stage.afterBody

def Failure.exception (f : Failure) : TransportException :=
  ⟨f.cls.exceptionClass, f.text, f.message⟩

/-- What a SOAP operation can raise. The first three are read out of an answer. -/
inductive Raised
  | fault (message : String) (code : Option String)
  | transportError (statusCode : String)
  | xmlSyntaxError
  | failure (f : Failure)

def Raised.reply {ρ : Type} : Raised → SoapReply ρ
  | .fault message code => .fault message code
  | .transportError statusCode => .transportError statusCode
  | .xmlSyntaxError => .xmlSyntaxError
  | .failure f => .exception f.exception

/-- No byte of the request body had been transmitted. -/
def Raised.Unsent : Raised → Prop
  | .failure f => f.bodySent = 0
  | .fault _ _ | .transportError _ | .xmlSyntaxError => False

/-- `_call` raises `ArcaAborted`. -/
def RaisesAborted {ρ : Type} (x : Except Exn ρ) : Prop :=
  ∃ e, x = .error (.arca e) ∧ e.kind = .aborted

/-! ## What is called aborted -/

/-- A connection error that is no connect timeout, with one of the markers in its text. -/
def Marked (cls : RequestsClass) (text : String) : Prop :=
  cls.exceptionClass = .connectionError ∧ ∃ marker ∈ connectStageMarkers, PyText.contains text marker

theorem sslError_marked (arguments : String) : Marked .sslError ("SSLError" ++ arguments) :=
  ⟨by decide, "SSLError", by decide, PyText.contains_append_left⟩

variable {ρ : Type} {operationName : String}

theorem classify_aborted {exc : TransportException} :
    classifyTransportException exc = .aborted ↔ exc.cls = .connectTimeout ∨
      exc.cls = .connectionError ∧ ∃ marker ∈ connectStageMarkers, PyText.contains exc.text marker := by
  unfold classifyTransportException
  split
  · next h => simp [h]
  · next h => simp [h]
  · next h =>
    simp only [h, reduceCtorEq, false_or, true_and]
    rw [← List.any_eq_true]
    split
    · next hany => simp [hany]
    · next hany => simp [hany]
  · next h => simp [h]

theorem raisesAborted_iff {r : Raised} :
    RaisesAborted (call operationName r.reply : Except Exn ρ) ↔
      ∃ f, r = .failure f ∧ (f.cls.isInstance .connectTimeout ∨ Marked f.cls f.text) := by
  cases r with
  | fault | transportError | xmlSyntaxError => simp [RaisesAborted, Raised.reply, call, raiseArca]
  | failure f =>
    simp only [RaisesAborted, Raised.reply, call, raiseArca, Except.error.injEq, Exn.arca.injEq,
      exists_eq_left', classify_aborted, Raised.failure.injEq]
    rw [Failure.exception, RequestsClass.exceptionClass_connectTimeout]
    rfl

/-- A connection error as late as requests allows it: the answer is being read. -/
def Failure.late (cls : RequestsClass) (text message : String)
    (h : cls.exceptionClass = .connectionError) : Failure where
  cls := cls
  text := text
  message := message
  stage := .reading
  bodySent := 1
  unsent := by simp [TransportStage.beforeBody]
  sent := by simp
  connect := fun hconnect => absurd hconnect (RequestsClass.exceptionClass_connectionError.mp h).2
  read := by simp [TransportStage.afterBody]

/-- What is called aborted was never transmitted, unless it is a connection error that
is no timeout and has a marker in its text: exactly those are called aborted
whenever they occur. -/
theorem aborted_unsent (operationName : String) :
    (∀ r : Raised, (RaisesAborted (call operationName r.reply : Except Exn ρ) → r.Unsent) ↔
      ∀ f, r = .failure f → Marked f.cls f.text → f.bodySent = 0) ∧
    ∀ (cls : RequestsClass) (text : String),
      (∀ f : Failure, f.cls = cls → f.text = text →
        RaisesAborted (call operationName (Raised.failure f).reply : Except Exn ρ) →
          (Raised.failure f).Unsent) ↔ ¬ Marked cls text := by
  constructor
  · intro r
    rw [raisesAborted_iff]
    constructor
    · rintro h f rfl hmarked
      exact h ⟨f, rfl, .inr hmarked⟩
    · rintro h ⟨f, rfl, hconnect | hmarked⟩
      · exact f.unsent (f.connect hconnect)
      · exact h f rfl hmarked
  · intro cls text
    constructor
    · intro h hmarked
      have hlate := h (.late cls text "" hmarked.1) rfl rfl (raisesAborted_iff.mpr ⟨_, rfl, .inr hmarked⟩)
      exact absurd hlate (by simp [Raised.Unsent, Failure.late])
    · rintro hnot f rfl rfl haborted
      obtain ⟨g, hg, hconnect | hmarked⟩ := raisesAborted_iff.mp haborted
      · obtain rfl := Raised.failure.inj hg
        exact f.unsent (f.connect hconnect)
      · obtain rfl := Raised.failure.inj hg
        exact absurd hmarked hnot

/-- The TLS layer fails while the answer is being read. -/
def tlsWhileReading : Failure :=
  .late .sslError ("SSLError" ++ "(SSLError(1, '[SSL: DECRYPTION_FAILED_OR_BAD_RECORD_MAC]'))")
    "[SSL: DECRYPTION_FAILED_OR_BAD_RECORD_MAC]" (by decide)

theorem tls_while_reading_aborted :
    RaisesAborted (call "FECAESolicitar" (Raised.failure tlsWhileReading).reply :
        Except Exn (Option CaeResponse)) ∧ ¬ (Raised.failure tlsWhileReading).Unsent := by
  refine ⟨raisesAborted_iff.mpr ⟨_, rfl, .inr (sslError_marked _)⟩, ?_⟩
  simp [Raised.Unsent, tlsWhileReading, Failure.late]

end ArcaEdi
