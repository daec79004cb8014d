import Dirigent.Json

/-!
# Buffered requests and their records

The asynchronous proxy copies an HTTP request into a `BufferedRequest`, stores this as JSON under
the key `req_` with the code of the request, and makes a request of it again when it is executed,
which after a restart is from the record. The outcome is kept in the same way under `res_`.

A Go string may hold any bytes, and the body of a request does. JSON keeps the strings that are
valid UTF-8 and replaces the others (`Json.Encoding`). A time is a number here, and a slice or a map
that is `nil` is an empty one.

* `BufferedRequest.encoding`, `BufferedResponse.encoding` — the records, field by field.
* `Store` — the key space, in which each record is under the key of its code.
* **`survives_iff`** — a request is read back from the store as it was exactly if its strings are
  valid.
-/

namespace Dirigent.AsyncProxy

open Json (field Encoding)

/-- `http.Header`, `url.Values` -/
abbrev Header := AList fun _ : Bytes => List Bytes

/-- `url.Userinfo`: it has no exported field. -/
structure Userinfo where
  username : Bytes := []
  password : Bytes := []
  passwordSet : Bool := false

structure URL where
  scheme : Bytes := []
  opaquePart : Bytes := []
  user : Option Userinfo := none
  host : Bytes := []
  path : Bytes := []
  rawPath : Bytes := []
  omitHost : Bool := false
  forceQuery : Bool := false
  rawQuery : Bytes := []
  fragment : Bytes := []
  rawFragment : Bytes := []

/-- The exported fields of `multipart.FileHeader`. -/
structure FileHeader where
  filename : Bytes := []
  header : Header := ∅
  size : ℤ := 0

structure MultipartForm where
  value : Header := ∅
  file : AList (fun _ : Bytes => List FileHeader) := ∅

/-- The fields of `http.Request` that are copied; `body` is what is read from `Body`. -/
structure Request where
  method : Bytes := []
  url : Option URL := none
  proto : Bytes := []
  protoMajor : ℤ := 0
  protoMinor : ℤ := 0
  header : Header := ∅
  body : Bytes := []
  contentLength : ℤ := 0
  transferEncoding : List Bytes := []
  close : Bool := false
  host : Bytes := []
  form : Header := ∅
  postForm : Header := ∅
  multipartForm : Option MultipartForm := none
  trailer : Header := ∅
  remoteAddr : Bytes := []

structure BufferedRequest where
  method : Bytes := []
  url : Option URL := none
  proto : Bytes := []
  protoMajor : ℤ := 0
  protoMinor : ℤ := 0
  header : Header := ∅
  body : Bytes := []
  contentLength : ℤ := 0
  transferEncoding : List Bytes := []
  close : Bool := false
  host : Bytes := []
  form : Header := ∅
  postForm : Header := ∅
  multipartForm : Option MultipartForm := none
  trailer : Header := ∅
  remoteAddr : Bytes := []
  code : Bytes := []
  numberTries : ℤ := 0
  start : ℤ := 0
  serializationDuration : ℤ := 0
  persistenceDuration : ℤ := 0

structure BufferedResponse where
  statusCode : ℤ := 0
  body : Bytes := []
  timestamp : ℤ := 0
  code : Bytes := []
  deriving DecidableEq

/-- `start` is `time.Now()`. -/
def bufferedRequestFromRequest (request : Request) (code : Bytes) (start : ℤ) :
    BufferedRequest where
  method := request.method
  url := request.url
  proto := request.proto
  protoMajor := request.protoMajor
  protoMinor := request.protoMinor
  header := request.header
  body := request.body
  contentLength := request.contentLength
  transferEncoding := request.transferEncoding
  close := request.close
  host := request.host
  form := request.form
  postForm := request.postForm
  multipartForm := request.multipartForm
  trailer := request.trailer
  remoteAddr := request.remoteAddr
  code := code
  numberTries := 0
  start := start

def requestFromBufferedRequest (bufferedRequest : BufferedRequest) : Request where
  method := bufferedRequest.method
  url := bufferedRequest.url
  proto := bufferedRequest.proto
  protoMajor := bufferedRequest.protoMajor
  protoMinor := bufferedRequest.protoMinor
  header := bufferedRequest.header
  body := bufferedRequest.body
  contentLength := bufferedRequest.contentLength
  transferEncoding := bufferedRequest.transferEncoding
  close := bufferedRequest.close
  host := bufferedRequest.host
  form := bufferedRequest.form
  postForm := bufferedRequest.postForm
  multipartForm := bufferedRequest.multipartForm
  trailer := bufferedRequest.trailer
  remoteAddr := bufferedRequest.remoteAddr

/-! ## The records -/

def headerEncoding : Encoding Header := Encoding.ofBytes.list.map

def Userinfo.encoding : Encoding Userinfo where
  marshal _ := .struct []
  unmarshal
    | .struct _ => some {}
    | _ => none
  clean _ := {}
  unmarshal_marshal _ := rfl

def URL.encoding : Encoding URL where
  marshal u := .struct
    [("Scheme", Encoding.ofBytes.marshal u.scheme),
      ("Opaque", Encoding.ofBytes.marshal u.opaquePart),
      ("User", (Userinfo.encoding.ptr nofun).marshal u.user),
      ("Host", Encoding.ofBytes.marshal u.host),
      ("Path", Encoding.ofBytes.marshal u.path),
      ("RawPath", Encoding.ofBytes.marshal u.rawPath),
      ("OmitHost", Encoding.ofBool.marshal u.omitHost),
      ("ForceQuery", Encoding.ofBool.marshal u.forceQuery),
      ("RawQuery", Encoding.ofBytes.marshal u.rawQuery),
      ("Fragment", Encoding.ofBytes.marshal u.fragment),
      ("RawFragment", Encoding.ofBytes.marshal u.rawFragment)]
  unmarshal
    | .struct fields => do
      let scheme ← field fields "Scheme" .ofBytes []
      let opaquePart ← field fields "Opaque" .ofBytes []
      let user ← field fields "User" (Userinfo.encoding.ptr nofun) none
      let host ← field fields "Host" .ofBytes []
      let path ← field fields "Path" .ofBytes []
      let rawPath ← field fields "RawPath" .ofBytes []
      let omitHost ← field fields "OmitHost" .ofBool false
      let forceQuery ← field fields "ForceQuery" .ofBool false
      let rawQuery ← field fields "RawQuery" .ofBytes []
      let fragment ← field fields "Fragment" .ofBytes []
      let rawFragment ← field fields "RawFragment" .ofBytes []
      pure { scheme, opaquePart, user, host, path, rawPath, omitHost, forceQuery, rawQuery,
             fragment, rawFragment }
    | _ => none
  clean u :=
    { scheme := Encoding.ofBytes.clean u.scheme
      opaquePart := Encoding.ofBytes.clean u.opaquePart
      user := (Userinfo.encoding.ptr nofun).clean u.user
      host := Encoding.ofBytes.clean u.host
      path := Encoding.ofBytes.clean u.path
      rawPath := Encoding.ofBytes.clean u.rawPath
      omitHost := Encoding.ofBool.clean u.omitHost
      forceQuery := Encoding.ofBool.clean u.forceQuery
      rawQuery := Encoding.ofBytes.clean u.rawQuery
      fragment := Encoding.ofBytes.clean u.fragment
      rawFragment := Encoding.ofBytes.clean u.rawFragment }
  unmarshal_marshal u := by simp

def FileHeader.encoding : Encoding FileHeader where
  marshal f := .struct
    [("Filename", Encoding.ofBytes.marshal f.filename),
      ("Header", headerEncoding.marshal f.header),
      ("Size", Encoding.ofInt.marshal f.size)]
  unmarshal
    | .struct fields => do
      let filename ← field fields "Filename" .ofBytes []
      let header ← field fields "Header" headerEncoding ∅
      let size ← field fields "Size" .ofInt 0
      pure { filename, header, size }
    | _ => none
  clean f :=
    { filename := Encoding.ofBytes.clean f.filename
      header := headerEncoding.clean f.header
      size := Encoding.ofInt.clean f.size }
  unmarshal_marshal f := by simp

def MultipartForm.encoding : Encoding MultipartForm where
  marshal f := .struct
    [("Value", headerEncoding.marshal f.value),
      ("File", FileHeader.encoding.list.map.marshal f.file)]
  unmarshal
    | .struct fields => do
      let value ← field fields "Value" headerEncoding ∅
      let file ← field fields "File" FileHeader.encoding.list.map ∅
      pure { value, file }
    | _ => none
  clean f :=
    { value := headerEncoding.clean f.value
      file := FileHeader.encoding.list.map.clean f.file }
  unmarshal_marshal f := by simp

def BufferedRequest.encoding : Encoding BufferedRequest where
  marshal r := .struct
    [("Method", Encoding.ofBytes.marshal r.method),
      ("URL", (URL.encoding.ptr nofun).marshal r.url),
      ("Proto", Encoding.ofBytes.marshal r.proto),
      ("ProtoMajor", Encoding.ofInt.marshal r.protoMajor),
      ("ProtoMinor", Encoding.ofInt.marshal r.protoMinor),
      ("Header", headerEncoding.marshal r.header),
      ("Body", Encoding.ofBytes.marshal r.body),
      ("ContentLength", Encoding.ofInt.marshal r.contentLength),
      ("TransferEncoding", Encoding.ofBytes.list.marshal r.transferEncoding),
      ("Close", Encoding.ofBool.marshal r.close),
      ("Host", Encoding.ofBytes.marshal r.host),
      ("Form", headerEncoding.marshal r.form),
      ("PostForm", headerEncoding.marshal r.postForm),
      ("MultipartForm", (MultipartForm.encoding.ptr nofun).marshal r.multipartForm),
      ("Trailer", headerEncoding.marshal r.trailer),
      ("RemoteAddr", Encoding.ofBytes.marshal r.remoteAddr),
      ("Code", Encoding.ofBytes.marshal r.code),
      ("NumberTries", Encoding.ofInt.marshal r.numberTries),
      ("Start", Encoding.ofInt.marshal r.start),
      ("SerializationDuration", Encoding.ofInt.marshal r.serializationDuration),
      ("PersistenceDuration", Encoding.ofInt.marshal r.persistenceDuration)]
  unmarshal
    | .struct fields => do
      let method ← field fields "Method" .ofBytes []
      let url ← field fields "URL" (URL.encoding.ptr nofun) none
      let proto ← field fields "Proto" .ofBytes []
      let protoMajor ← field fields "ProtoMajor" .ofInt 0
      let protoMinor ← field fields "ProtoMinor" .ofInt 0
      let header ← field fields "Header" headerEncoding ∅
      let body ← field fields "Body" .ofBytes []
      let contentLength ← field fields "ContentLength" .ofInt 0
      let transferEncoding ← field fields "TransferEncoding" Encoding.ofBytes.list []
      let close ← field fields "Close" .ofBool false
      let host ← field fields "Host" .ofBytes []
      let form ← field fields "Form" headerEncoding ∅
      let postForm ← field fields "PostForm" headerEncoding ∅
      let multipartForm ← field fields "MultipartForm" (MultipartForm.encoding.ptr nofun) none
      let trailer ← field fields "Trailer" headerEncoding ∅
      let remoteAddr ← field fields "RemoteAddr" .ofBytes []
      let code ← field fields "Code" .ofBytes []
      let numberTries ← field fields "NumberTries" .ofInt 0
      let start ← field fields "Start" .ofInt 0
      let serializationDuration ← field fields "SerializationDuration" .ofInt 0
      let persistenceDuration ← field fields "PersistenceDuration" .ofInt 0
      pure { method, url, proto, protoMajor, protoMinor, header, body, contentLength,
             transferEncoding, close, host, form, postForm, multipartForm, trailer, remoteAddr,
             code, numberTries, start, serializationDuration, persistenceDuration }
    | _ => none
  clean r :=
    { method := Encoding.ofBytes.clean r.method
      url := (URL.encoding.ptr nofun).clean r.url
      proto := Encoding.ofBytes.clean r.proto
      protoMajor := Encoding.ofInt.clean r.protoMajor
      protoMinor := Encoding.ofInt.clean r.protoMinor
      header := headerEncoding.clean r.header
      body := Encoding.ofBytes.clean r.body
      contentLength := Encoding.ofInt.clean r.contentLength
      transferEncoding := Encoding.ofBytes.list.clean r.transferEncoding
      close := Encoding.ofBool.clean r.close
      host := Encoding.ofBytes.clean r.host
      form := headerEncoding.clean r.form
      postForm := headerEncoding.clean r.postForm
      multipartForm := (MultipartForm.encoding.ptr nofun).clean r.multipartForm
      trailer := headerEncoding.clean r.trailer
      remoteAddr := Encoding.ofBytes.clean r.remoteAddr
      code := Encoding.ofBytes.clean r.code
      numberTries := Encoding.ofInt.clean r.numberTries
      start := Encoding.ofInt.clean r.start
      serializationDuration := Encoding.ofInt.clean r.serializationDuration
      persistenceDuration := Encoding.ofInt.clean r.persistenceDuration }
  unmarshal_marshal r := by simp

def BufferedResponse.encoding : Encoding BufferedResponse where
  marshal r := .struct
    [("StatusCode", Encoding.ofInt.marshal r.statusCode),
      ("Body", Encoding.ofBytes.marshal r.body),
      ("Timestamp", Encoding.ofInt.marshal r.timestamp),
      ("Code", Encoding.ofBytes.marshal r.code)]
  unmarshal
    | .struct fields => do
      let statusCode ← field fields "StatusCode" .ofInt 0
      let body ← field fields "Body" .ofBytes []
      let timestamp ← field fields "Timestamp" .ofInt 0
      let code ← field fields "Code" .ofBytes []
      pure { statusCode, body, timestamp, code }
    | _ => none
  clean r :=
    { statusCode := Encoding.ofInt.clean r.statusCode
      body := Encoding.ofBytes.clean r.body
      timestamp := Encoding.ofInt.clean r.timestamp
      code := Encoding.ofBytes.clean r.code }
  unmarshal_marshal r := by simp

/-! ## The store -/

/-- `req_` -/
def bufferedRequestPrefix : Bytes := [0x72, 0x65, 0x71, 0x5F]

/-- `res_` -/
def bufferedResponsePrefix : Bytes := [0x72, 0x65, 0x73, 0x5F]

def requestKey (code : Bytes) : Bytes := bufferedRequestPrefix ++ code

def responseKey (code : Bytes) : Bytes := bufferedResponsePrefix ++ code

theorem requestKey_inj {code code' : Bytes} :
    requestKey code = requestKey code' ↔ code = code' := by
  simp [requestKey]

theorem responseKey_inj {code code' : Bytes} :
    responseKey code = responseKey code' ↔ code = code' := by
  simp [responseKey]

theorem requestKey_ne_responseKey (code code' : Bytes) : requestKey code ≠ responseKey code' := by
  simp [requestKey, responseKey, bufferedRequestPrefix, bufferedResponsePrefix]

/-- The key space: under the key of a code there is a record with this code. -/
structure Store where
  data : AList fun _ : Bytes => Json
  request : ∀ code v, data.lookup (requestKey code) = some v →
    ∃ r : BufferedRequest, v = BufferedRequest.encoding.marshal r ∧ r.code = code
  response : ∀ code v, data.lookup (responseKey code) = some v →
    ∃ r : BufferedResponse, v = BufferedResponse.encoding.marshal r ∧ r.code = code

namespace Store

instance : EmptyCollection Store := ⟨∅, nofun, nofun⟩

def persistBufferedRequest (s : Store) (r : BufferedRequest) : Store where
  data := s.data.insert (requestKey r.code) (BufferedRequest.encoding.marshal r)
  request code v h := by
    by_cases hcode : code = r.code
    · rw [hcode, AList.lookup_insert] at h
      cases h
      exact ⟨r, rfl, hcode.symm⟩
    · rw [AList.lookup_insert_ne (requestKey_inj.not.2 hcode)] at h
      exact s.request code v h
  response code v h := by
    rw [AList.lookup_insert_ne (requestKey_ne_responseKey _ _).symm] at h
    exact s.response code v h

def persistBufferedResponse (s : Store) (r : BufferedResponse) : Store where
  data := s.data.insert (responseKey r.code) (BufferedResponse.encoding.marshal r)
  request code v h := by
    rw [AList.lookup_insert_ne (requestKey_ne_responseKey _ _)] at h
    exact s.request code v h
  response code v h := by
    by_cases hcode : code = r.code
    · rw [hcode, AList.lookup_insert] at h
      cases h
      exact ⟨r, rfl, hcode.symm⟩
    · rw [AList.lookup_insert_ne (responseKey_inj.not.2 hcode)] at h
      exact s.response code v h

theorem lookup_of_lookup_erase {m : AList fun _ : Bytes => Json} {k k' : Bytes} {v : Json}
    (h : (m.erase k').lookup k = some v) : m.lookup k = some v := by
  by_cases hk : k = k'
  · rw [hk, AList.lookup_erase] at h
    cases h
  · rwa [AList.lookup_erase_ne hk] at h

/-- `Del` is given a second key, `data`, that no record has. -/
def deleteBufferedRequest (s : Store) (code : Bytes) : Store where
  data := (s.data.erase (requestKey code)).erase [0x64, 0x61, 0x74, 0x61]
  request code v h := s.request code v (lookup_of_lookup_erase (lookup_of_lookup_erase h))
  response code v h := s.response code v (lookup_of_lookup_erase (lookup_of_lookup_erase h))

/-- The keys that there are for `ScanKeys` to find. -/
def scanKeys (s : Store) (start : Bytes) : List Bytes := s.data.keys.filter start.isPrefixOf

/-- The record under a key; `none` is the panic where `Unmarshal` fails. -/
def readBufferedRequest (s : Store) (key : Bytes) : Option BufferedRequest :=
  (s.data.lookup key).bind BufferedRequest.encoding.unmarshal

def readBufferedResponse (s : Store) (key : Bytes) : Option BufferedResponse :=
  (s.data.lookup key).bind BufferedResponse.encoding.unmarshal

/-- The loop over the keys that were found. -/
def scanBufferedRequests (s : Store) (keys : List Bytes) : Option (List BufferedRequest) :=
  keys.mapM s.readBufferedRequest

/-! ### What is read -/

variable {s : Store} {key : Bytes} {keys : List Bytes}

theorem mem_scanKeys {start key : Bytes} :
    key ∈ s.scanKeys start ↔ (s.data.lookup key).isSome = true ∧ start <+: key := by
  rw [scanKeys, List.mem_filter, List.isPrefixOf_iff_prefix, AList.lookup_isSome, AList.mem_keys]

/-- Under the key of a code a request is read, and it has this code, as far as the code is text. -/
theorem exists_read_of_mem_scanKeys (h : key ∈ s.scanKeys bufferedRequestPrefix) :
    ∃ code r, key = requestKey code ∧
      s.readBufferedRequest key = some r ∧ r.code = Utf8.toValid code := by
  obtain ⟨hsome, code, rfl⟩ := mem_scanKeys.1 h
  obtain ⟨v, hv⟩ := Option.isSome_iff_exists.1 hsome
  obtain ⟨r, rfl, rfl⟩ := s.request code v hv
  refine ⟨r.code, BufferedRequest.encoding.clean r, rfl, ?_, rfl⟩
  rw [readBufferedRequest, hv, Option.bind_some]
  exact BufferedRequest.encoding.unmarshal_marshal r

theorem isSome_readBufferedRequest (h : keys.Perm (s.scanKeys bufferedRequestPrefix)) :
    ∀ key ∈ keys, (s.readBufferedRequest key).isSome = true := by
  intro key hkey
  obtain ⟨-, r, -, hr, -⟩ := exists_read_of_mem_scanKeys (h.mem_iff.1 hkey)
  rw [hr]
  rfl

theorem readBufferedRequest_persist (s : Store) (r : BufferedRequest) :
    (s.persistBufferedRequest r).readBufferedRequest (requestKey r.code) =
      some (BufferedRequest.encoding.clean r) := by
  rw [readBufferedRequest, persistBufferedRequest, AList.lookup_insert, Option.bind_some]
  exact BufferedRequest.encoding.unmarshal_marshal r

/-- A loop that finds a record under each key returns them in the order of the keys. -/
theorem exists_scanBufferedRequests (h : ∀ key ∈ keys, (s.readBufferedRequest key).isSome = true) :
    ∃ rs, s.scanBufferedRequests keys = some rs ∧
      List.Forall₂ (fun key r => s.readBufferedRequest key = some r) keys rs := by
  induction keys with
  | nil => exact ⟨[], rfl, .nil⟩
  | cons key keys ih =>
    obtain ⟨r, hr⟩ := Option.isSome_iff_exists.1 (h key List.mem_cons_self)
    obtain ⟨rs, hrs, hall⟩ := ih fun k hk => h k (List.mem_cons_of_mem _ hk)
    refine ⟨r :: rs, ?_, .cons hr hall⟩
    rw [scanBufferedRequests] at hrs ⊢
    rw [List.mapM_cons, hr, hrs]
    rfl

/-! ### By code -/

/-- The request that is read for a code. -/
def requestOf (s : Store) (code : Bytes) : Option BufferedRequest :=
  s.readBufferedRequest (requestKey code)

/-- The response that is read for a code. -/
def responseOf (s : Store) (code : Bytes) : Option BufferedResponse :=
  s.readBufferedResponse (responseKey code)

theorem mem_scanKeys_request :
    key ∈ s.scanKeys bufferedRequestPrefix ↔
      ∃ code, key = requestKey code ∧ (s.requestOf code).isSome = true := by
  constructor
  · intro h
    obtain ⟨code, r, rfl, hr, -⟩ := exists_read_of_mem_scanKeys h
    exact ⟨code, rfl, Option.isSome_iff_exists.2 ⟨r, hr⟩⟩
  · intro h
    obtain ⟨code, rfl, hsome⟩ := h
    refine mem_scanKeys.2 ⟨?_, code, rfl⟩
    cases hv : s.data.lookup (requestKey code) with
    | none => simp [requestOf, readBufferedRequest, hv] at hsome
    | some v => rfl

theorem mem_scanKeys_response :
    key ∈ s.scanKeys bufferedResponsePrefix ↔
      ∃ code, key = responseKey code ∧ (s.responseOf code).isSome = true := by
  constructor
  · intro h
    obtain ⟨hsome, code, rfl⟩ := mem_scanKeys.1 h
    obtain ⟨v, hv⟩ := Option.isSome_iff_exists.1 hsome
    obtain ⟨r, rfl, rfl⟩ := s.response code v hv
    refine ⟨r.code, rfl, ?_⟩
    have hv : s.data.lookup (responseKey r.code) = _ := hv
    rw [responseOf, readBufferedResponse, hv, Option.bind_some,
      BufferedResponse.encoding.unmarshal_marshal r]
    rfl
  · intro h
    obtain ⟨code, rfl, hsome⟩ := h
    refine mem_scanKeys.2 ⟨?_, code, rfl⟩
    cases hv : s.data.lookup (responseKey code) with
    | none => simp [responseOf, readBufferedResponse, hv] at hsome
    | some v => rfl

@[simp] theorem requestOf_persistBufferedRequest (s : Store) (r : BufferedRequest) (code : Bytes) :
    (s.persistBufferedRequest r).requestOf code =
      if code = r.code then some (BufferedRequest.encoding.clean r) else s.requestOf code := by
  by_cases hcode : code = r.code
  · rw [if_pos hcode, hcode]
    exact readBufferedRequest_persist s r
  · rw [if_neg hcode]
    simp only [requestOf, readBufferedRequest, persistBufferedRequest]
    rw [AList.lookup_insert_ne (requestKey_inj.not.2 hcode)]

@[simp] theorem responseOf_persistBufferedRequest (s : Store) (r : BufferedRequest) (code : Bytes) :
    (s.persistBufferedRequest r).responseOf code = s.responseOf code := by
  simp only [responseOf, readBufferedResponse, persistBufferedRequest]
  rw [AList.lookup_insert_ne (requestKey_ne_responseKey _ _).symm]

@[simp] theorem requestOf_persistBufferedResponse (s : Store) (r : BufferedResponse)
    (code : Bytes) : (s.persistBufferedResponse r).requestOf code = s.requestOf code := by
  simp only [requestOf, readBufferedRequest, persistBufferedResponse]
  rw [AList.lookup_insert_ne (requestKey_ne_responseKey _ _)]

@[simp] theorem responseOf_persistBufferedResponse (s : Store) (r : BufferedResponse)
    (code : Bytes) : (s.persistBufferedResponse r).responseOf code =
      if code = r.code then some (BufferedResponse.encoding.clean r) else s.responseOf code := by
  simp only [responseOf, readBufferedResponse, persistBufferedResponse]
  by_cases hcode : code = r.code
  · rw [if_pos hcode, hcode, AList.lookup_insert, Option.bind_some]
    exact BufferedResponse.encoding.unmarshal_marshal r
  · rw [if_neg hcode, AList.lookup_insert_ne (responseKey_inj.not.2 hcode)]

@[simp] theorem requestOf_deleteBufferedRequest (s : Store) (code code' : Bytes) :
    (s.deleteBufferedRequest code').requestOf code =
      if code = code' then none else s.requestOf code := by
  have hdata : requestKey code ≠ [0x64, 0x61, 0x74, 0x61] := by
    simp [requestKey, bufferedRequestPrefix]
  simp only [requestOf, readBufferedRequest, deleteBufferedRequest]
  rw [AList.lookup_erase_ne hdata]
  by_cases hcode : code = code'
  · rw [if_pos hcode, hcode, AList.lookup_erase, Option.bind_none]
  · rw [if_neg hcode, AList.lookup_erase_ne (requestKey_inj.not.2 hcode)]

@[simp] theorem responseOf_deleteBufferedRequest (s : Store) (code code' : Bytes) :
    (s.deleteBufferedRequest code').responseOf code = s.responseOf code := by
  have hdata : responseKey code ≠ [0x64, 0x61, 0x74, 0x61] := by
    simp [responseKey, bufferedResponsePrefix]
  simp only [responseOf, readBufferedResponse, deleteBufferedRequest]
  rw [AList.lookup_erase_ne hdata, AList.lookup_erase_ne (requestKey_ne_responseKey _ _).symm]

end Store

/-! ## The round trip -/

/-- What the worker gets to see of the two requests is the same. -/
structure SameRequest (r r' : Request) : Prop where
  method : r.method = r'.method
  path : r.url.map (fun u => (u.path, u.rawPath)) = r'.url.map fun u => (u.path, u.rawPath)
  query : r.url.map (fun u => (u.rawQuery, u.forceQuery)) =
    r'.url.map fun u => (u.rawQuery, u.forceQuery)
  host : r.host = r'.host
  header : ∀ name, r.header.lookup name = r'.header.lookup name
  contentLength : r.contentLength = r'.contentLength
  body : r.body = r'.body

/-- The request that is stored with the code is found by a scan, whatever else is stored and in
whatever order the keys come, and it is the same request. -/
def Survives (s : Store) (r : Request) (code : Bytes) (start : ℤ) : Prop :=
  let s' := s.persistBufferedRequest (bufferedRequestFromRequest r code start)
  ∀ keys, keys.Perm (s'.scanKeys bufferedRequestPrefix) →
    ∃ rs, s'.scanBufferedRequests keys = some rs ∧
      ∃ r', (requestKey code, r') ∈ keys.zip rs ∧
        SameRequest (requestFromBufferedRequest r') r ∧ r'.code = code

/-- The strings that are looked at are valid UTF-8. -/
structure Request.IsText (r : Request) : Prop where
  method : Utf8.isValid r.method = true
  url : ∀ u ∈ r.url, Utf8.isValid u.path = true ∧ Utf8.isValid u.rawPath = true ∧
    Utf8.isValid u.rawQuery = true
  host : Utf8.isValid r.host = true
  header : ∀ name values, r.header.lookup name = some values →
    Utf8.isValid name = true ∧ ∀ value ∈ values, Utf8.isValid value = true
  body : Utf8.isValid r.body = true

theorem survives_iff_clean {s : Store} {r : Request} {code : Bytes} {start : ℤ} :
    Survives s r code start ↔
      SameRequest (requestFromBufferedRequest
        (BufferedRequest.encoding.clean (bufferedRequestFromRequest r code start))) r ∧
      Utf8.toValid code = code := by
  have hread := s.readBufferedRequest_persist (bufferedRequestFromRequest r code start)
  constructor
  · intro h
    obtain ⟨rs, hrs, r', hmem, hsame, hcode⟩ := h _ (List.Perm.refl _)
    obtain ⟨rs', hrs', hall⟩ :=
      Store.exists_scanBufferedRequests (Store.isSome_readBufferedRequest (List.Perm.refl _))
    obtain rfl := Option.some.inj (hrs.symm.trans hrs')
    have hfound := (List.forall₂_iff_zip.1 hall).2 hmem
    obtain rfl := Option.some.inj (hfound.symm.trans hread)
    exact ⟨hsame, hcode⟩
  · intro h keys hperm
    obtain ⟨rs, hrs, hall⟩ :=
      Store.exists_scanBufferedRequests (Store.isSome_readBufferedRequest hperm)
    obtain ⟨hlength, hzip⟩ := List.forall₂_iff_zip.1 hall
    have hmem : requestKey code ∈ (keys.zip rs).map Prod.fst := by
      rw [List.map_fst_zip hlength.le, hperm.mem_iff, Store.mem_scanKeys]
      exact ⟨AList.lookup_isSome.2 ((AList.mem_insert _).2 (.inl rfl)), code, rfl⟩
    obtain ⟨⟨key, r'⟩, hr', rfl⟩ := List.mem_map.1 hmem
    refine ⟨rs, hrs, r', hr', ?_⟩
    obtain rfl := Option.some.inj ((hzip hr').symm.trans hread)
    exact h

/-- The URL that is read has the path and the query of the URL exactly if these are text. -/
theorem url_clean_iff {url : Option URL} :
    (url.map URL.encoding.clean).map (fun u => (u.path, u.rawPath)) =
        url.map (fun u => (u.path, u.rawPath)) ∧
      (url.map URL.encoding.clean).map (fun u => (u.rawQuery, u.forceQuery)) =
        url.map (fun u => (u.rawQuery, u.forceQuery)) ↔
      ∀ u ∈ url, Utf8.isValid u.path = true ∧ Utf8.isValid u.rawPath = true ∧
        Utf8.isValid u.rawQuery = true := by
  cases url with
  | none => simp
  | some u =>
    have hpath : (URL.encoding.clean u).path = Utf8.toValid u.path := rfl
    have hrawPath : (URL.encoding.clean u).rawPath = Utf8.toValid u.rawPath := rfl
    have hrawQuery : (URL.encoding.clean u).rawQuery = Utf8.toValid u.rawQuery := rfl
    have hforceQuery : (URL.encoding.clean u).forceQuery = u.forceQuery := rfl
    simp [hpath, hrawPath, hrawQuery, hforceQuery, Utf8.toValid_eq_self_iff, and_assoc]

theorem header_clean_iff {header : Header} :
    (∀ name, (headerEncoding.clean header).lookup name = header.lookup name) ↔
      ∀ name values, header.lookup name = some values →
        Utf8.isValid name = true ∧ ∀ value ∈ values, Utf8.isValid value = true := by
  refine Encoding.lookup_clean_map_iff.trans ?_
  refine forall₃_congr fun name values _ => and_congr_right fun _ => ?_
  rw [Encoding.clean_list_eq_self_iff]
  exact forall₂_congr fun value _ => Utf8.toValid_eq_self_iff

/-- **Buffered requests survive persistence** exactly if they are text. -/
theorem survives_iff (s : Store) (r : Request) (code : Bytes) (start : ℤ) :
    Survives s r code start ↔ r.IsText ∧ Utf8.isValid code = true := by
  rw [survives_iff_clean, Utf8.toValid_eq_self_iff]
  refine and_congr_left fun _ => ⟨fun h => ?_, fun h => ?_⟩
  · exact {
      method := Utf8.toValid_eq_self_iff.1 h.method
      url := url_clean_iff.1 ⟨h.path, h.query⟩
      host := Utf8.toValid_eq_self_iff.1 h.host
      header := header_clean_iff.1 h.header
      body := Utf8.toValid_eq_self_iff.1 h.body }
  · exact {
      method := Utf8.toValid_eq_self_iff.2 h.method
      path := (url_clean_iff.2 h.url).1
      query := (url_clean_iff.2 h.url).2
      host := Utf8.toValid_eq_self_iff.2 h.host
      header := header_clean_iff.2 h.header
      contentLength := rfl
      body := Utf8.toValid_eq_self_iff.2 h.body }

/-- The byte `FF` as a body comes back as the three bytes of U+FFFD. -/
theorem not_survives_binary : ∃ (r : Request) (code : Bytes),
    ¬ Survives ∅ r code 0 ∧ BufferedRequest.body <$>
      ((∅ : Store).persistBufferedRequest (bufferedRequestFromRequest r code 0)).readBufferedRequest
        (requestKey code) = some [0xEF, 0xBF, 0xBD] := by
  refine ⟨{ body := [0xFF], contentLength := 1 }, [0x61], ?_, by decide +kernel⟩
  rw [survives_iff_clean]
  intro h
  have hbody := h.1.body
  revert hbody
  decide

end Dirigent.AsyncProxy
