import CrossChain.ForStd.Assoc
import CrossChain.ForStd.Numerals
import CrossChain.ForStd.Span
import CrossChain.Native.BigNum
import CrossChain.Native.Rpc

/-!
# HTTP

The request a coin node is sent and the reader of its reply, from rpccall.h.
A stream is the bytes left on it.  `ReadHTTPHeaders` loops until it meets an
empty line; `turns` bounds its turns here, and `none` is a loop still running.
-/

namespace CrossChain

/-- `MAX_SIZE` of serialize.h. -/
def maxSize : Nat := 0x02000000

/-- `HTTPStatusCode`. -/
inductive HTTPStatusCode where
  | ok
  | badRequest
  | unauthorized
  | forbidden
  | notFound
  | internalServerError
  deriving DecidableEq, Repr

/-- `map<string, string>`, by its entries. -/
abbrev Headers := List (Str × Str)

/-- `m[key]`, which enters an empty string where the key is missing. -/
def Headers.index (m : Headers) (key : Str) : Str × Headers :=
  match m.lookup key with
  | some v => (v, m)
  | none => ([], Assoc.set m key [])

/-! ## The request -/

/-- `pbase64`. -/
def pbase64 : Str := str "ABCDEFGHIJKLMNOPQRSTUVWXYZabcdefghijklmnopqrstuvwxyz0123456789+/"

/-- `pbase64[i]`. -/
def pbase64At (i : Nat) : UInt8 := pbase64.getD i 0

/-- The loop of `EncodeBase64`, from `mode` and `left`, and what follows it. -/
def encodeBase64Go : Nat → Nat → Bytes → Str
  | mode, left, [] =>
    if mode ≠ 0 then
      pbase64At left :: 0x3d :: if mode = 1 then [0x3d] else []
    else []
  -- we have no bits
  | 0, _, enc :: pch =>
    pbase64At (enc.toNat >>> 2) :: encodeBase64Go 1 ((enc.toNat &&& 3) <<< 4) pch
  -- we have two bits
  | 1, left, enc :: pch =>
    pbase64At (left ||| (enc.toNat >>> 4)) :: encodeBase64Go 2 ((enc.toNat &&& 15) <<< 2) pch
  -- we have four bits
  | 2, left, enc :: pch =>
    pbase64At (left ||| (enc.toNat >>> 6)) :: pbase64At (enc.toNat &&& 63) ::
      encodeBase64Go 0 left pch
  -- no other mode is ever set
  | mode, left, _ :: pch => encodeBase64Go mode left pch

/-- `EncodeBase64`. -/
def encodeBase64 (pch : Bytes) : Str := encodeBase64Go 0 0 pch

/-- What `operator<<` writes for a `size_t`. -/
def decimal (n : Nat) : Str :=
  if n = 0 then str "0" else (Numeral.ofNat 10 n).map fun d => UInt8.ofNat (0x30 + d)

/-- `HTTPPost`. -/
def httpPost (strMsg : Str) (mapRequestHeaders : Headers) : Str :=
  str "POST / HTTP/1.1\r\n"
    ++ str "User-Agent: bitcoin-json-rpc/" ++ str "beta" ++ str "\r\n"
    ++ str "Host: 127.0.0.1\r\n"
    ++ str "Content-Type: application/json\r\n"
    ++ str "Content-Length: " ++ decimal strMsg.length ++ str "\r\n"
    ++ str "Connection: close\r\n"
    ++ str "Accept: application/json\r\n"
    ++ mapRequestHeaders.flatMap (fun item => item.1 ++ str ": " ++ item.2 ++ str "\r\n")
    ++ str "\r\n" ++ strMsg

/-- The `mapRequestHeaders` of `CallRPC`. -/
def mapRequestHeaders (rpc : RpcConf) : Headers :=
  let strUserPass64 := encodeBase64 (rpc.rpcuser ++ str ":" ++ rpc.rpcpassword)
  Assoc.set [] (str "Authorization") (str "Basic " ++ strUserPass64)

/-! ## The reply -/

/-- `getline`: the line and what is left of the stream. -/
def getline (stream : Str) : Str × Str :=
  (stream.takeWhile (· != 0x0a), (stream.dropWhile (· != 0x0a)).drop 1)

/-- `boost::trim`. -/
def boostTrim (s : Str) : Str := Span.trim isspace s

/-- `boost::to_lower`. -/
def boostToLower (s : Str) : Str :=
  s.map fun c => if 0x41 ≤ c && c ≤ 0x5a then c + 0x20 else c

/-- `isdigit`. -/
def isdigit (c : UInt8) : Bool := 0x30 ≤ c && c ≤ 0x39

/-- `strtol(s, NULL, 10)` with a `long` of 64 bits. -/
def strtol10 (s : Str) : Int :=
  let s := s.dropWhile isspace
  let neg := s.head? == some 0x2d
  let s := if s.head? = some 0x2d ∨ s.head? = some 0x2b then s.drop 1 else s
  let n : Int := (((s.takeWhile isdigit).map fun c => c.toNat - 0x30).foldl
    (fun n d => n * 10 + d) 0 : Nat)
  if neg then max (-n) (-2 ^ 63) else min n (2 ^ 63 - 1)

/-- `atoi`, which cuts the result of `strtol` to an `int`. -/
def atoi (s : Str) : Int := CBigNum.toInt32 (strtol10 (cStr s))

/-- What a turn of `ReadHTTPHeaders` makes of a line: `nLen` and `mapHeadersRet`. -/
def readHeader (st : Int × Headers) (line : Str) : Int × Headers :=
  match line.idxOf? 0x3a with
  | none => st
  | some nColon =>
    let strHeader := boostToLower (boostTrim (line.take nColon))
    let strValue := boostTrim (line.drop (nColon + 1))
    (if strHeader = str "content-length" then atoi strValue else st.1,
      Assoc.set st.2 strHeader strValue)

/-- The loop of `ReadHTTPHeaders`. -/
def readHTTPHeadersGo : Nat → Int × Headers → Str → Option ((Int × Headers) × Str)
  | 0, _, _ => none
  | turns + 1, st, stream =>
    let line := (getline stream).1
    if line = [] ∨ line = str "\r" then some (st, (getline stream).2)
    else readHTTPHeadersGo turns (readHeader st line) (getline stream).2

/-- `ReadHTTPHeaders`: `nLen`, the map, and what is left of the stream. -/
def readHTTPHeaders (turns : Nat) (stream : Str) (mapHeadersRet : Headers) :
    Option ((Int × Headers) × Str) :=
  readHTTPHeadersGo turns (0, mapHeadersRet) stream

/-- `stream.read` into a zeroed vector of `n` bytes. -/
def streamRead (n : Nat) (stream : Str) : Bytes := (stream ++ List.replicate n 0).take n

/-- What `ReadHTTPMessage` returns and fills in. -/
structure HTTPMessage where
  status : HTTPStatusCode
  mapHeadersRet : Headers
  strMessageRet : Str
  deriving DecidableEq

/-- `ReadHTTPMessage` once the headers are read. -/
def readHTTPBody (nLen : Int) (mapHeadersRet : Headers) (stream : Str) (nProto : Int) :
    HTTPMessage :=
  if nLen < 0 ∨ maxSize < nLen then ⟨.internalServerError, mapHeadersRet, []⟩
  else
    let strMessageRet := if 0 < nLen then streamRead nLen.toNat stream else []
    let (sConHdr, mapHeadersRet) := mapHeadersRet.index (str "connection")
    if sConHdr ≠ str "close" ∧ sConHdr ≠ str "keep-alive" then
      let value := if 1 ≤ nProto then str "keep-alive" else str "close"
      ⟨.ok, Assoc.set mapHeadersRet (str "connection") value, strMessageRet⟩
    else ⟨.ok, mapHeadersRet, strMessageRet⟩

/-- `ReadHTTPMessage`, which clears the map first. -/
def readHTTPMessage (turns : Nat) (stream : Str) (nProto : Int) : Option HTTPMessage := do
  let (st, stream) ← readHTTPHeaders turns stream []
  return readHTTPBody st.1 st.2 stream nProto

end CrossChain
