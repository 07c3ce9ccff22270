import Spaceshuttle.Kernel.Snaft
import Spaceshuttle.Lib.Text

/-!
# Intents of raw traffic

`infer_intent` of `crates/trust-kernel/src/portmux.rs:17-225` and its helpers: what the port
multiplexer takes the first bytes of a connection for, and the preview of them that it hands to
Kernel A. A result of `none` is a panic: a slice that ends inside a character or an index out of
range. The confidence of a guess is only printed, and the mode of a port is never read; both are
left out.
-/

namespace Spaceshuttle.Kernel

/-- `PortIntent` (`portmux.rs:18-25`). -/
structure PortIntent where
  port : UInt16
  service : String
  defaultIntent : String
  deriving DecidableEq, Repr

/-- `HashMap<u16, PortIntent>`. -/
abbrev PortMap := UInt16 → Option PortIntent

/-- `default_port_map` (`portmux.rs:36-62`). -/
def defaultPortMap : PortMap := fun port =>
  [PortIntent.mk 4430 "tibet-mux" "mux:native", ⟨22, "ssh", "shell:command"⟩,
    ⟨80, "http", "http:request"⟩, ⟨443, "https", "http:request"⟩,
    ⟨5432, "postgresql", "db:query"⟩, ⟨3306, "mysql", "db:query"⟩, ⟨6379, "redis", "db:query"⟩,
    ⟨27017, "mongodb", "db:query"⟩, ⟨8080, "http-alt", "http:request"⟩,
    ⟨8443, "https-alt", "http:request"⟩, ⟨25, "smtp", "mail:send"⟩, ⟨53, "dns", "dns:resolve"⟩,
    ⟨11434, "ollama", "ai:inference"⟩, ⟨5000, "api", "http:request"⟩,
    ⟨8000, "api", "http:request"⟩, ⟨3000, "app", "http:request"⟩,
    ⟨9090, "prometheus", "metrics:scrape"⟩, ⟨2222, "ssh-alt", "shell:command"⟩].find?
      (fun entry => entry.port = port)

/-- `InferredIntent` (`portmux.rs:217-225`). -/
structure InferredIntent where
  intent : String
  service : String
  protocolVersion : String
  clientId : String
  payloadPreview : String
  deriving DecidableEq, Repr

/-! ## Helpers on text -/

/-- A byte string literal. -/
def ascii (text : String) : List UInt8 := text.toList.map (fun c => UInt8.ofNat c.toNat)

/-- `first_bytes.starts_with(..)`. -/
def bytesStartWith (bytes : List UInt8) (start : String) : Bool := (ascii start).isPrefixOf bytes

/-- `str::starts_with` on decoded text. -/
def textStartsWith (text : List Char) (start : String) : Bool := start.toList.isPrefixOf text

/-- `str::ends_with` on decoded text. -/
def textEndsWith (text : List Char) (ending : String) : Bool := ending.toList.isSuffixOf text

/-- `str::contains` on decoded text. -/
def textContains (text : List Char) (pattern : String) : Bool :=
  decide (pattern.toList <:+: text)

/-- A number in decimal. -/
def decimal (n : Nat) : List Char := Nat.toDigits 10 n

/-- A byte in hexadecimal with two digits: `{:02x}`. -/
def hexByte (b : UInt8) : List Char :=
  [Nat.digitChar (b.toNat / 16), Nat.digitChar (b.toNat % 16)]

/-- `extract_until_newline` (`portmux.rs:393-395`). -/
def extractUntilNewline (text : List Char) : List Char := (Text.lines text).headD []

/-- `extract_ssh_client` (`portmux.rs:397-405`). -/
def extractSshClient (version : List Char) : List Char :=
  match version.splitOn '-' with
  | _ :: _ :: software :: _ => (Text.splitWhitespace software).headD "unknown".toList
  | _ => "unknown".toList

/-- `extract_http_version` (`portmux.rs:407-414`). -/
def extractHttpVersion (request : List Char) : List Char :=
  ((Text.lines request).head?.bind (fun line => (Text.splitWhitespace line)[2]?)).getD
    "HTTP/?".toList

/-- `extract_user_agent` (`portmux.rs:416-424`). The name of the header is looked for in the
lowercase line and cut off the line itself. -/
def extractUserAgent (request : List Char) : Option (List Char) :=
  match (Text.lines request).find?
      (fun line => textStartsWith (Text.toLowercase line) "user-agent:") with
  | some line => (Text.sliceFrom line 11).map Text.trim
  | none => some []

/-- The value after the first key `user` that has one (`portmux.rs:429-436`). -/
def valueOfUser : List (List Char) → Option (List Char)
  | [] => none
  | part :: parts =>
      match parts with
      | value :: _ => if part = "user".toList then some value else valueOfUser parts
      | [] => none

/-- `extract_pg_user` (`portmux.rs:426-438`). -/
def extractPgUser (startup : List Char) : List Char :=
  (valueOfUser (startup.splitOn '\x00')).getD "unknown".toList

/-- `categorize_path` (`portmux.rs:440-449`). -/
def categorizePath (path : List Char) : String :=
  if [".js", ".css", ".png", ".jpg", ".svg", ".woff2"].any (textEndsWith path) then "static"
  else if textEndsWith path ".html" || path = "/".toList then "page"
  else "resource"

/-! ## TLS -/

/-- `u16::from_be_bytes` of two bytes of a slice; an index out of range panics. -/
def be16 (data : List UInt8) (i : Nat) : Option Nat := do
  let high ← data[i]?
  let low ← data[i + 1]?
  return high.toNat * 256 + low.toNat

theorem be16_eq {data : List UInt8} {i : Nat} {high low : UInt8} (hhigh : data[i]? = some high)
    (hlow : data[i + 1]? = some low) : be16 data i = some (high.toNat * 256 + low.toNat) := by
  unfold be16
  rw [hhigh, hlow]
  rfl

theorem be16_isSome (data : List UInt8) (i : Nat) (hi : i + 2 ≤ data.length) :
    ∃ n, be16 data i = some n :=
  ⟨_, be16_eq (List.getElem?_eq_getElem (by omega)) (List.getElem?_eq_getElem (by omega))⟩

/-- The loop over the extensions (`portmux.rs:484-498`). Every turn moves on by four bytes or more,
so the length of the data is fuel enough. -/
def findSni (data : List UInt8) (extensionsEnd : Nat) : Nat → Nat → Option (Option (List Char))
  | 0, _ => some none
  | fuel + 1, pos =>
      if pos + 4 ≤ extensionsEnd ∧ pos + 4 ≤ data.length then do
        let extType ← be16 data pos
        let extLen ← be16 data (pos + 2)
        let pos := pos + 4
        if extType = 0 ∧ extLen > 5 ∧ pos + extLen ≤ data.length then
          let nameLen ← be16 data (pos + 3)
          if pos + 5 + nameLen ≤ data.length then
            return Text.fromUtf8 ((data.drop (pos + 5)).take nameLen)
          else findSni data extensionsEnd fuel (pos + extLen)
        else findSni data extensionsEnd fuel (pos + extLen)
      else some none

/-- `extract_tls_sni` (`portmux.rs:451-501`). -/
def extractTlsSni (data : List UInt8) : Option (Option (List Char)) :=
  if data.length < 43 then some none
  else
    -- record header, handshake type and length, client version, random
    let pos := 5 + 1 + 3 + 2 + 32
    if pos ≥ data.length then some none
    else do
      let sessionIdLen ← data[pos]?
      let pos := pos + 1 + sessionIdLen.toNat
      if pos + 2 > data.length then return none
      let cipherSuitesLen ← be16 data pos
      let pos := pos + 2 + cipherSuitesLen
      if pos + 1 > data.length then return none
      let compressionLen ← data[pos]?
      let pos := pos + 1 + compressionLen.toNat
      if pos + 2 > data.length then return none
      let extensionsLen ← be16 data pos
      let pos := pos + 2
      findSni data (pos + extensionsLen) data.length pos

/-! ## Inference -/

/-- What the branches of `infer_intent` recognise. -/
inductive Protocol where
  | ssh
  | http
  | tls
  | postgresql
  | redis
  | mysql
  | dns
  | unknown
  deriving DecidableEq, Repr

/-- The first bytes of a TLS ClientHello (`portmux.rs:126-130`). -/
def isTlsHello (bytes : List UInt8) : Bool :=
  decide (bytes.length ≥ 6) && bytes[0]? == some 0x16 && bytes[1]? == some 0x03 &&
    bytes[5]? == some 0x01

/-- `u32::from_be_bytes` of four bytes. -/
def be32 (bytes : List UInt8) (i : Nat) : Option Nat := do
  let high ← be16 bytes i
  let low ← be16 bytes (i + 2)
  return high * 65536 + low

theorem be32_isSome (bytes : List UInt8) (i : Nat) (h : i + 4 ≤ bytes.length) :
    ∃ n, be32 bytes i = some n := by
  obtain ⟨high, hhigh⟩ := be16_isSome bytes i (by omega)
  obtain ⟨low, hlow⟩ := be16_isSome bytes (i + 2) (by omega)
  exact ⟨high * 65536 + low, by simp [be32, hhigh, hlow]⟩

theorem be32_eq_none {bytes : List UInt8} {i : Nat} (h : bytes.length < i + 4) : be32 bytes i = none := by
  have hlast : bytes[i + 2 + 1]? = none := List.getElem?_eq_none (by omega)
  have hlow : be16 bytes (i + 2) = none := by simp [be16, hlast]
  simp [be32, hlow]

/-- A PostgreSQL startup message (`portmux.rs:143-147`). -/
def isPgStartup (bytes : List UInt8) : Bool :=
  match be32 bytes 0, be32 bytes 4 with
  | some len, some version => version == 196608 && decide (len > 8) && decide (len < 1024)
  | _, _ => false

/-- The branch that `infer_intent` takes. -/
def detect (port : UInt16) (bytes : List UInt8) : Protocol :=
  if bytesStartWith bytes "SSH-" then .ssh
  else if ["GET ", "POST ", "PUT ", "DELETE ", "PATCH ", "HEAD ", "OPTIONS "].any
      (bytesStartWith bytes) then .http
  else if isTlsHello bytes then .tls
  else if isPgStartup bytes then .postgresql
  else if ["*", "PING", "AUTH", "INFO"].any (bytesStartWith bytes) then .redis
  else if bytes[4]? == some 0x0A then .mysql
  else if port == 53 && decide (bytes.length ≥ 12) &&
      (bytes[2]?.any (fun b => decide (b < 0x80))) then .dns
  else .unknown

/-- The intent of an HTTP request (`portmux.rs:106-113`). -/
def httpIntent (method path : List Char) : String :=
  let method := String.ofList (method.map Char.toLower)
  if textStartsWith path "/api/" then "http:api:" ++ method
  else if textStartsWith path "/admin" then "http:admin:" ++ method
  else if textContains path "login" || textContains path "auth" then "http:auth"
  else if textContains path "upload" then "http:upload"
  else if textContains path "webhook" then "http:webhook"
  else "http:" ++ method ++ ":" ++ categorizePath path

/-- The text of a preview in which the traffic itself does not appear. -/
def bytesPreview (before : String) (count : Nat) : List Char :=
  before.toList ++ decimal count ++ " bytes]".toList

/-- The preview of unknown traffic (`portmux.rs:209-211`). -/
def rawPreview (bytes : List UInt8) : List Char :=
  "[raw bytes, ".toList ++ decimal bytes.length ++ " len, head=0x[".toList ++
    List.intercalate ", ".toList ((bytes.take 8).map hexByte) ++ "]]".toList

/-- `infer_intent` (`portmux.rs:67-214`). -/
def inferIntent (port : UInt16) (bytes : List UInt8) (portMap : PortMap) :
    Option InferredIntent :=
  let defaultIntent := ((portMap port).map PortIntent.defaultIntent).getD "unknown:raw"
  let service := ((portMap port).map PortIntent.service).getD "unknown"
  match detect port bytes with
  | .ssh => do
      let version := Text.fromUtf8Lossy (bytes.take 256)
      let preview ← Text.sliceAtMost version 128
      return { intent := "shell:session", service
               protocolVersion := String.ofList (extractUntilNewline version)
               clientId := String.ofList (extractSshClient version)
               payloadPreview := String.ofList preview }
  | .http => do
      let request := Text.fromUtf8Lossy (bytes.take 2048)
      let words := Text.splitWhitespace request
      let intent := httpIntent (words.headD "?".toList) (words[1]?.getD "/".toList)
      let userAgent ← extractUserAgent request
      let preview ← Text.sliceAtMost request 256
      return { intent, service
               protocolVersion := String.ofList (extractHttpVersion request)
               clientId := String.ofList userAgent
               payloadPreview := String.ofList preview }
  | .tls => do
      let sni ← extractTlsSni bytes
      let version ← bytes[2]?
      return { intent := "tls:handshake", service
               protocolVersion := String.ofList ("TLS 1.".toList ++ decimal version.toNat)
               clientId := String.ofList (sni.getD "unknown".toList)
               payloadPreview := String.ofList (bytesPreview "[TLS ClientHello, " bytes.length) }
  | .postgresql =>
      let user := extractPgUser (Text.fromUtf8Lossy ((bytes.take 256).drop 8))
      some { intent := "db:connect", service := "postgresql", protocolVersion := "3.0"
             clientId := String.ofList user
             payloadPreview :=
               String.ofList ("[PG startup, user=".toList ++ user ++ "]".toList) }
  | .redis => do
      let command := Text.fromUtf8Lossy (bytes.take 128)
      let preview ← Text.sliceAtMost command 64
      return { intent := "db:redis:command", service := "redis", protocolVersion := "RESP"
               clientId := ""
               payloadPreview := String.ofList preview }
  | .mysql =>
      some { intent := "db:connect", service := "mysql", protocolVersion := "10", clientId := ""
             payloadPreview := String.ofList (bytesPreview "[MySQL handshake, " bytes.length) }
  | .dns =>
      some { intent := "dns:query", service := "dns", protocolVersion := "DNS", clientId := ""
             payloadPreview := String.ofList (bytesPreview "[DNS query, " bytes.length) }
  | .unknown =>
      some { intent := defaultIntent, service, protocolVersion := "", clientId := ""
             payloadPreview := String.ofList (rawPreview bytes) }

end Spaceshuttle.Kernel
