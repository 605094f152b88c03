import Mathlib.Data.Int.Notation
import Mathlib.Tactic.Common
import Zuvloop.ByteOrder
import Zuvloop.Text.SurrogateEscape

/-!
# Conversions between Python addresses and `struct sockaddr`

`zig/addr.zig`, with the part of `sendto` (`zig/datagram.zig`) that compares a destination with the
address of the peer. The layout is the one without a length byte.

What libuv does with the text of an internet address is a parameter (`Inet`); what it does with a
zone is not, since it decides what becomes of the scope.

## Main definitions

* `fromPython`, `toPython`: from a Python address to a `struct sockaddr`, and back;
* `unixName`: the bytes that name an `AF_UNIX` socket;
* `same`: whether two addresses name the same endpoint;
* `sendtoDestination`: where `sendto` sends a datagram to.
-/

namespace Zuvloop.Address

open ByteOrder Text

/-! ## Python values -/

/-- A Python object, as far as an address tells objects apart. -/
inductive Item
  | none
  | str (s : List CodePoint)
  | bytes (b : List UInt8)
  | int (n : ℤ)
  /-- An object of any other type, which has no `__index__`. -/
  | other (id : ℕ)
  deriving DecidableEq

/-- A Python address: one object, or a tuple of them. -/
inductive Value
  | item (i : Item)
  | tuple (items : List Item)
  deriving DecidableEq

/-- The exceptions that a conversion raises. -/
inductive Error
  | typeError (message : String)
  | valueError (message : String)
  | overflowError (message : String)
  /-- A string that holds a surrogate. -/
  | unicodeEncodeError
  /-- A libuv error. -/
  | osError (status : ℤ)
  deriving DecidableEq

/-- ASCII text as bytes. -/
def ascii (s : String) : List UInt8 := s.toList.map fun c => UInt8.ofNat c.toNat

/-- `PyUnicode_AsUTF8AndSize`, of any object. -/
def asUtf8 : Item → Except Error (List UInt8)
  | .str s =>
    match encodeStrict s with
    | some bs => .ok bs
    | none => .error .unicodeEncodeError
  | _ => .error (.typeError "bad argument type for built-in operation")

/-- `asIsizeClamped`: an integer, cut off at the bounds of `Py_ssize_t`. -/
def asIsizeClamped : Item → Except Error ℤ
  | .int n => .ok (max (-0x8000000000000000) (min n 0x7fffffffffffffff))
  | _ => .error (.typeError "object cannot be interpreted as an integer")

/-! ## Socket addresses -/

/-- An IPv4 address. -/
abbrev Ip4 := Vector UInt8 4

/-- An IPv6 address. -/
abbrev Ip6 := Vector UInt8 16

/-- `un.path`. -/
abbrev UnixPath := Vector UInt8 108

/-- `struct sockaddr`, by family. Numbers are as the machine reads them from memory. -/
inductive Sockaddr
  | inet (port : UInt16) (addr : Ip4) (zero : Vector UInt8 8)
  | inet6 (port : UInt16) (flowinfo : UInt32) (addr : Ip6) (scopeId : UInt32)
  | unix (path : UnixPath)
  /-- Any other family. -/
  | other (family : ℕ) (data : List UInt8)
  deriving DecidableEq

/-- One of the families that `toPython` has a value for. -/
def Sockaddr.Known : Sockaddr → Prop
  | .other _ _ => False
  | _ => True

/-- `UN_BASE`: where the path of an `AF_UNIX` address begins. -/
def unBase : ℕ := 2

/-- `AF_UNIX` -/
def afUnix : ℤ := 1

/-- `AF_INET6` -/
def afInet6 : ℤ := 10

/-- What libuv makes of the text of an internet address, and of an address as text. -/
structure Inet where
  /-- `uv_inet_pton(AF_INET)` -/
  pton4 : List UInt8 → Option Ip4
  /-- `uv_inet_pton(AF_INET6)`, of text without a zone. -/
  pton6 : List UInt8 → Option Ip6
  /-- `uv_inet_ntop(AF_INET)` -/
  ntop4 : Ip4 → List Char
  /-- `uv_inet_ntop(AF_INET6)` -/
  ntop6 : Ip6 → List Char
  /-- `if_nametoindex` -/
  ifNameToIndex : List UInt8 → UInt32

/-- `UV_EINVAL` -/
def einval : ℤ := -22

/-- `uv_ip4_addr` -/
def uvIp4Addr (e : Endian) (inet : Inet) (ip : List UInt8) (port : UInt16) :
    Except Error Sockaddr :=
  match inet.pton4 ip with
  | some a => .ok (.inet (e.network16 port) a (Vector.replicate 8 0))
  | none => .error (.osError einval)

/-- The address that text denotes, whatever its zone. `uv_ip6_addr` keeps 39 bytes of what comes
before a zone. -/
def Inet.address6 (inet : Inet) (ip : List UInt8) : Option Ip6 :=
  if '%'.toUInt8 ∈ ip then inet.pton6 ((ip.takeWhile (· ≠ '%'.toUInt8)).take 39)
  else inet.pton6 ip

/-- The scope that text names by its zone. -/
def Inet.zone6 (inet : Inet) (ip : List UInt8) : UInt32 :=
  if '%'.toUInt8 ∈ ip then inet.ifNameToIndex ((ip.dropWhile (· ≠ '%'.toUInt8)).drop 1)
  else 0

/-- `uv_ip6_addr` -/
def uvIp6Addr (e : Endian) (inet : Inet) (ip : List UInt8) (port : UInt16) :
    Except Error Sockaddr :=
  match inet.address6 ip with
  | some a => .ok (.inet6 (e.network16 port) 0 a (inet.zone6 ip))
  | none => .error (.osError einval)

/-! ## From Python -/

/-- A path in a zeroed `un.path`. -/
def storePath (path : List UInt8) (h : path.length < 108) : UnixPath :=
  ⟨(path ++ List.replicate (108 - path.length) 0).toArray, by simp; omega⟩

/-- The `AF_UNIX` branch of `fromPython`, once the bytes of the path are read. -/
def fromPath (path : List UInt8) : Except Error (Sockaddr × ℕ) :=
  if h : path.length < 108 then
    if path ≠ [] ∧ path.head? ≠ some 0 ∧ 0 ∈ path then .error (.valueError "embedded null byte")
    else .ok (.unix (storePath path h), unBase + path.length)
  else .error (.valueError "AF_UNIX path too long")

/-- The host of an address as text that ends at its terminator. -/
def hostText (family : ℤ) : Item → Except Error (List UInt8)
  | .none => .ok (if family = afInet6 then ascii "::" else ascii "0.0.0.0")
  | host => do
    let s ← asUtf8 host
    if 256 ≤ s.length then throw (.valueError "host name too long")
    if 0 ∈ s then throw (.valueError "embedded null character")
    return s

/-- The third and the fourth item of a tuple, where it has them. -/
def setInet6Fields (items : List Item) : Sockaddr → Except Error Sockaddr
  | .inet6 port flowinfo addr scopeId => do
    let flowinfo ← match items[2]? with
      | none => pure flowinfo
      | some item => do
        let n ← asIsizeClamped item
        if n < 0 ∨ 0xfffff < n then throw (.overflowError "flowinfo must be 0-1048575")
        pure (.ofNat n.toNat)
    let scopeId ← match items[3]? with
      | none => pure scopeId
      | some item => do
        let n ← asIsizeClamped item
        if n < 0 ∨ 0xffffffff < n then throw (.overflowError "scope_id must be 0-4294967295")
        pure (.ofNat n.toNat)
    return .inet6 port flowinfo addr scopeId
  | sa => .ok sa

/-- The tuple branch of `fromPython`. -/
def fromTuple (e : Endian) (inet : Inet) (family : ℤ) (items : List Item) :
    Except Error (Sockaddr × ℕ) :=
  match items with
  | hostItem :: portItem :: _ => do
    let port ← asIsizeClamped portItem
    if port < 0 ∨ 65535 < port then throw (.overflowError "port must be 0-65535")
    let host ← hostText family hostItem
    if family = afInet6 ∨ (family = 0 ∧ ':'.toUInt8 ∈ host) then
      let sa ← uvIp6Addr e inet host (.ofNat port.toNat)
      let sa ← setInet6Fields items sa
      return (sa, 28)
    let sa ← uvIp4Addr e inet host (.ofNat port.toNat)
    return (sa, 16)
  | _ => .error (.typeError "address tuple must be (host, port)")

/-- `fromPython`: the address with its length. -/
def fromPython (e : Endian) (inet : Inet) (family : ℤ) (address : Value) :
    Except Error (Sockaddr × ℕ) :=
  if family = afUnix then
    match address with
    | .item (.str s) => asUtf8 (.str s) >>= fromPath
    | .item (.bytes b) => fromPath b
    | _ => .error (.typeError "AF_UNIX addresses must be str or bytes")
  else
    match address with
    | .tuple items => fromTuple e inet family items
    | _ => .error (.typeError "address must be a tuple")

/-! ## To Python -/

/-- `unixName`: the bytes that name an `AF_UNIX` socket, as the kernel distinguishes them. -/
def unixName (path : UnixPath) (len : ℕ) : List UInt8 :=
  if len ≤ unBase then []
  else
    let name := path.toList.take (min (len - unBase) 108)
    if path[0] = 0 then name else name.takeWhile (· ≠ 0)

/-- What a name begins with. -/
theorem head?_take (path : UnixPath) {n : ℕ} (h : n ≠ 0) :
    (path.toList.take n).head? = some path[0] := by
  rw [List.head?_take, if_neg h, List.head?_eq_getElem?]
  simp

/-- Text of an internet address as a string. -/
def hostString (host : List Char) : Item := .str (host.map ofChar)

/-- `toPython`, allocation failures aside. -/
def toPython (e : Endian) (inet : Inet) : Sockaddr → (len : ℕ) → Value
  | .unix path, len =>
    if len ≤ unBase then .item .none
    else if path[0] = 0 then .item (.bytes (unixName path len))
    else .item (.str (decode (unixName path len)))
  | .inet port addr _, _ =>
    .tuple [hostString (inet.ntop4 addr), .int (e.network16 port).toNat]
  | .inet6 port flowinfo addr scopeId, _ =>
    .tuple [hostString (inet.ntop6 addr), .int (e.network16 port).toNat, .int flowinfo.toNat,
      .int scopeId.toNat]
  | .other _ _, _ => .item .none

/-! ## Comparison -/

/-- `same`: whether two addresses name the same endpoint. Only the fields that identify the peer
are read. -/
def same : Sockaddr → ℕ → Sockaddr → ℕ → Bool
  | .unix a, la, .unix b, lb => unixName a la == unixName b lb
  | .inet port addr _, _, .inet port' addr' _, _ => port == port' && addr == addr'
  | .inet6 port flowinfo addr scopeId, _, .inet6 port' flowinfo' addr' scopeId', _ =>
    port == port' && addr == addr' && flowinfo == flowinfo' && scopeId == scopeId'
  | _, _, _, _ => false

/-- The destination of `sendto`: none stands for the peer of a connected endpoint. `peer` is what
`uv_udp_getpeername` reports. -/
def sendtoDestination (e : Endian) (inet : Inet) (family : ℤ) (connected : Bool)
    (peer : Option (Sockaddr × ℕ)) : Value → Except Error (Option (Sockaddr × ℕ))
  | .item .none =>
    if connected then .ok none
    else .error (.valueError "sendto() requires an address on an unconnected transport")
  | target => do
    let dest ← fromPython e inet family target
    if connected then
      -- naming the peer is allowed, naming anything else is not
      match peer with
      | some peer =>
        if same dest.1 dest.2 peer.1 peer.2 then return none
        throw (.valueError "Transport is connected; sendto() takes no address but the peer's")
      | none =>
        throw (.valueError "Transport is connected; sendto() takes no address but the peer's")
    return some dest

end Zuvloop.Address
