import ArcaEdi.Lib.PyText
import ArcaEdi.Records

/-!
# The WSFEv1 transport

What `l10n_ar_arca_wsfe.py` makes of each answer. The answer itself is an input:
a response, or one of the exceptions that zeep and requests raise.
-/

namespace ArcaEdi

/-! ## What a SOAP call can end in -/

/-- The classes that `_classify_transport_exception` tells apart. A connect
timeout is also a connection error, so the order of the tests matters. -/
inductive ExceptionClass
  | readTimeout | connectTimeout | connectionError | other
  deriving DecidableEq, Repr

/-- An exception of requests, zeep or the socket, by what the code reads of it. -/
structure TransportException where
  cls : ExceptionClass
  /-- `repr(exc)` -/
  text : String
  /-- `str(exc)` -/
  message : String
  deriving DecidableEq, Repr

/-- A call returns an answer or raises. -/
inductive SoapReply (ρ : Type)
  | response (r : ρ)
  | fault (message : String) (code : Option String)
  | transportError (statusCode : String)
  | xmlSyntaxError
  | exception (exc : TransportException)
  deriving DecidableEq

/-- A group with an inner list, either of which ARCA may leave out. -/
abbrev Group (α : Type) := Option (Option (List α))

structure UltimoAutorizado where
  errors : Group Remark
  cbteNro : Option Nat
  deriving DecidableEq

structure FeCaeDetResponse where
  resultado : Option String
  cae : Option String
  caeFchVto : Option String
  observaciones : Group Remark
  raw : String
  deriving DecidableEq

structure CaeResponse where
  errors : Group Remark
  feDetResp : Group FeCaeDetResponse
  deriving DecidableEq

/-- `ResultGet` -/
structure CompConsultado where
  codAutorizacion : Option String
  fchVto : Option String
  resultado : Option String
  impTotal : Option ℚ
  cbteFch : Option String
  docTipo : Option Int
  docNro : Option Int
  raw : String
  deriving DecidableEq

structure ConsultResponse where
  errors : Group Remark
  resultGet : Option CompConsultado
  deriving DecidableEq

/-! ## Transport -/

def connectStageMarkers : List String :=
  ["NewConnectionError", "NameResolutionError", "SSLError", "ProxyError", "getaddrinfo",
    "Failed to establish a new connection"]

/-- `_classify_transport_exception`: aborted by class or by a marker, else uncertain. -/
def classifyTransportException (exc : TransportException) : ArcaErrorKind :=
  match exc.cls with
  | .readTimeout => .uncertain
  | .connectTimeout => .aborted
  | .connectionError =>
    if connectStageMarkers.any (PyText.contains exc.text) then .aborted else .uncertain
  | .other => .uncertain

def raiseArca {α : Type} (kind : ArcaErrorKind) (message : String) (code : Option String := none)
    (observations : List Remark := []) : Except Exn α :=
  .error (.arca ⟨kind, message, code, observations⟩)

/-- `_call`: what the transport raises is classified, and all else goes through. -/
def call {ρ : Type} (operationName : String) : SoapReply ρ → Except Exn ρ
  | .response r => .ok r
  | .fault message code => raiseArca .businessError s!"ARCA refused the request: {message}" code
  | .transportError statusCode =>
    raiseArca .uncertain s!"ARCA answered with HTTP {statusCode} and no usable body."
  | .xmlSyntaxError =>
    raiseArca .uncertain "ARCA returned a malformed response that could not be parsed."
  | .exception exc =>
    raiseArca (classifyTransportException exc)
      s!"Transport failure calling {operationName}: {exc.message}"

/-! ## Response handling -/

def errorNoDataFound : String := "602"
def errorCuitNotRepresented : String := "601"

def Group.entries {α : Type} (group : Group α) : List α := (group.getD none).getD []

def collectErrors (errors : Group Remark) : List Remark := errors.entries

def formatErrors (entries : List Remark) : String :=
  "\n".intercalate (entries.map fun entry => s!"[{entry.code}] {entry.message}")

/-- `_raise_business_error`, under the code of the first error. -/
def raiseBusinessError {α : Type} (errors : List Remark) : Except Exn α :=
  match errors.find? fun error => PyText.strip error.code == errorCuitNotRepresented with
  | some error =>
    raiseArca .businessError
      ("ARCA accepted the certificate but will not let it invoice for this CUIT: the holder is not "
        ++ "authorized to represent it.\n\nIn the ARCA portal, under \"Crear autorización a "
        ++ "servicio\", authorize this certificate's DN for the service 'wsfe' representing that "
        ++ "CUIT.\n\n" ++ formatErrors errors)
      (some error.code)
  | none => raiseArca .businessError (formatErrors errors) (errors.head?.map (·.code))

/-- `_raise_for_errors`: an answer without errors passes. -/
def raiseForErrors (errors : Group Remark) : Except Exn Unit :=
  if collectErrors errors = [] then .ok () else raiseBusinessError (collectErrors errors)

/-- `_parse_arca_date`: from `yyyymmdd` to the ISO text that a Date field reads. -/
def parseArcaDate (value : Option String) : Option String :=
  match value with
  | none | some "" => none
  | some value =>
    let text := PyText.strip value
    if text.length ≠ 8 || !PyText.allDigits text then none
    else
      let digits := text.toList
      some (String.ofList
        (digits.take 4 ++ '-' :: (digits.drop 4).take 2 ++ '-' :: digits.drop 6))

structure CaeResult where
  cae : Option String
  caeDueDate : Option String
  observations : List Remark
  raw : String
  deriving DecidableEq

/-- `_parse_cae_response`: approved, refused, or neither. -/
def parseCaeResponse : Option CaeResponse → Except Exn CaeResult
  | none => raiseArca .uncertain "ARCA returned an empty response to FECAESolicitar."
  | some response =>
    let globalErrors := collectErrors response.errors
    match response.feDetResp.entries with
    | [] =>
      if globalErrors = [] then
        raiseArca .uncertain
          "ARCA returned no voucher detail and no error; the outcome is unknown."
      else raiseBusinessError globalErrors
    | det :: _ =>
      let observations := det.observaciones.entries
      if det.resultado = some "R" then
        let reasons := globalErrors ++ observations
        let messages := formatErrors reasons
        raiseArca .businessError
          (if messages = "" then "ARCA rejected the voucher without giving a reason." else messages)
          (some ((reasons.head?.map (·.code)).getD "")) observations
      else if det.resultado = some "A" ∧ (det.cae = none ∨ det.cae = some "") then
        raiseArca .uncertain "ARCA reported the voucher as approved but returned no CAE."
      else if det.resultado = some "A" ∨ det.resultado = some "P" then
        .ok ⟨det.cae, parseArcaDate det.caeFchVto, observations, det.raw⟩
      else
        let shown := (det.resultado.map fun r => s!"'{r}'").getD "None"
        raiseArca .uncertain s!"ARCA returned an unrecognised result code {shown}."

/-! ## Operations, from the answer on -/

def feCompUltimoAutorizado (posNumber : Nat) (reply : SoapReply UltimoAutorizado) :
    Except Exn Nat := do
  let response ← call "FECompUltimoAutorizado" reply
  raiseForErrors response.errors
  match response.cbteNro with
  | some number => .ok number
  | none =>
    raiseArca .businessError
      s!"ARCA did not return the last authorized number for POS {posNumber}."

def feCaeSolicitar (reply : SoapReply (Option CaeResponse)) : Except Exn CaeResult := do
  let response ← call "FECAESolicitar" reply
  parseCaeResponse response

/-- What `fe_comp_consultar` returns of a voucher that ARCA holds. -/
structure Found where
  cae : Option String
  caeDueDate : Option String
  result : Option String
  total : Option ℚ
  date : Option String
  docType : Option Int
  docNumber : Option Int
  raw : String
  deriving DecidableEq

/-- An empty answer reads like one that says that there is no such voucher. -/
def feCompConsultar (reply : SoapReply (Option ConsultResponse)) : Except Exn (Option Found) := do
  let response ← call "FECompConsultar" reply
  let errors := collectErrors ((response.map (·.errors)).getD none)
  if errors.any fun error => PyText.strip error.code == errorNoDataFound then .ok none
  else if errors ≠ [] then raiseBusinessError errors
  else
    match response.bind (·.resultGet) with
    | none => .ok none
    | some found =>
      .ok (some ⟨found.codAutorizacion, parseArcaDate found.fchVto, found.resultado, found.impTotal,
        parseArcaDate found.cbteFch, found.docTipo, found.docNro, found.raw⟩)

end ArcaEdi
