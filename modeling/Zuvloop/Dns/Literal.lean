import Zuvloop.Address.Identity
import Zuvloop.Text.ParseInt

/-!
# Address literals without the resolver

`resolveLiteral` of `zig/dns.zig`, which answers for a plain address literal without entering libc,
with `copyZ`, which makes C strings of what Python passes, and `buildResults`, which renders its
answer and those of libc alike. libc is a parameter: its `inet_pton`, and its `getaddrinfo`, of
which only the answers for address literals with a numeric service are said to be anything.

Allocation failures are left out, and so is what a resolver might report that is no member of the
enumerations of the socket module.

## Main definitions

* `copyZ`, `resolveLiteral`, `finishLiteral`, `buildResults`: the functions of the source;
* `Libc.Lawful`: what libc answers for a literal;
* `AnswersAsLibc`: whatever `resolveLiteral` answers, libc answers too, for the port that the
  service denotes.

## Main results

* `answers_as_libc_iff`: it does, unless there is an underscore in the service.
-/

namespace Zuvloop.Dns

open ByteOrder Text Address

/-! ## The platform and the resolver -/

/-- What a platform is compiled for. -/
structure Platform where
  endian : Endian
  isMusl : Bool
  isDarwin : Bool
  isWindows : Bool
  /-- `AF_INET6` -/
  afInet6 : ℤ
  /-- `AI_NUMERICSERV` -/
  aiNumericServ : UInt32

/-- `AF_UNSPEC` -/
def afUnspec : ℤ := 0

/-- `AF_INET` -/
def afInet : ℤ := 2

/-- `SOCK_STREAM` -/
def sockStream : ℤ := 1

/-- `SOCK_DGRAM` -/
def sockDgram : ℤ := 2

/-- `IPPROTO_TCP` -/
def ipprotoTcp : ℤ := 6

/-- `IPPROTO_UDP` -/
def ipprotoUdp : ℤ := 17

/-- `AI_PASSIVE` -/
def aiPassive : UInt32 := 1

/-- `AI_NUMERICHOST` -/
def aiNumericHost : UInt32 := 4

/-- The hints of a request. -/
structure Hints where
  flags : UInt32
  family : ℤ
  socktype : ℤ
  protocol : ℤ

/-- An element of the list that `getaddrinfo` returns, as far as it is read. -/
structure Addrinfo where
  family : ℤ
  socktype : ℤ
  protocol : ℤ
  canonname : Option (List CodePoint)
  addr : Option Sockaddr
  addrlen : ℕ

/-- libc. Its strings have no terminator here, and end where they end. -/
structure Libc where
  /-- `inet_pton(AF_INET)` -/
  pton4 : List UInt8 → Option Ip4
  /-- `inet_pton(AF_INET6)` -/
  pton6 : List UInt8 → Option Ip6
  /-- `getaddrinfo`, with an `EAI_*` code where it fails. -/
  getaddrinfo : Option (List UInt8) → Option (List UInt8) → Hints → Except ℤ (List Addrinfo)

/-! ## Arguments -/

/-- The smallest and the largest `c_int`. -/
def IsCInt (n : ℤ) : Prop := -0x80000000 ≤ n ∧ n ≤ 0x7fffffff

instance (n : ℤ) : Decidable (IsCInt n) := inferInstanceAs (Decidable (_ ∧ _))

/-- `asCInt`, of an integer. -/
def asCInt (n : ℤ) : Except Error ℤ :=
  if IsCInt n then .ok n
  else if -0x8000000000000000 ≤ n ∧ n ≤ 0x7fffffffffffffff then
    .error (.valueError "integer out of range")
  else .error (.overflowError "Python int too large to convert to C long")

/-- What `copyZ` copies into a buffer of this many bytes. -/
def copyBytes (size : ℕ) (src : List UInt8) : Except Error (Option (List UInt8)) :=
  if 0 ∈ src then .error (.valueError "embedded null byte")
  else if size ≤ src.length then .error (.valueError "value too long")
  else .ok (some src)

/-- `copyZ`: an argument as a C string, in a buffer of this many bytes. -/
def copyZ (size : ℕ) (value : Item) (what : String) : Except Error (Option (List UInt8)) :=
  match value with
  | .none => .ok none
  | .str s => do copyBytes size (← asUtf8 (.str s))
  | .bytes b => copyBytes size b
  | .int n => do
    let text := ascii (toString (← asCInt n))
    if size - 1 < text.length then throw (.valueError "value out of range")
    return some text
  | .other _ => .error (.typeError (what ++ " must be str, bytes, int or None"))

/-- `max_host` -/
def maxHost : ℕ := 1024

/-- The size of `service_buf`. -/
def maxService : ℕ := 32

/-! ## Results -/

/-- A tuple of the list that `getaddrinfo` resolves to. The members of the enumerations are the
numbers that they are equal to. -/
structure Entry where
  family : ℤ
  kind : ℤ
  protocol : ℤ
  canonname : List CodePoint
  address : Value
  deriving DecidableEq

/-- `buildResults` -/
def buildResults (e : Endian) (inet : Inet) (res : List Addrinfo) : List Entry :=
  res.filterMap fun ai =>
    ai.addr.map fun sa =>
      { family := ai.family
        kind := ai.socktype
        protocol := ai.protocol
        canonname := ai.canonname.getD []
        address := toPython e inet sa ai.addrlen }

/-- `finishLiteral` -/
def finishLiteral (e : Endian) (inet : Inet) (family socktype protocol : ℤ) (sa : Sockaddr) :
    List Entry :=
  -- the node is zeroed, so it has no name, and the length of the address is zero
  buildResults e inet [⟨family, socktype, protocol, none, some sa, 0⟩]

/-! ## Literals -/

/-- The flags that cannot change the answer for a literal. -/
def Platform.ignorable (p : Platform) : UInt32 := aiNumericHost ||| p.aiNumericServ ||| aiPassive

/-- The protocol that a type of sockets implies. -/
def impliedProtocol (socktype : ℤ) : Option ℤ :=
  if socktype = sockStream then some ipprotoTcp
  else if socktype = sockDgram then some ipprotoUdp
  else none

/-- The protocol in the result, where the hints are ones that `resolveLiteral` answers for. -/
def literalProtocol (p : Platform) (hints : Hints) : Option ℤ :=
  if p.isMusl then none
  else if hints.flags &&& ~~~p.ignorable ≠ 0 then none
  else do
    let protocol ← impliedProtocol hints.socktype
    if hints.protocol ≠ 0 ∧ hints.protocol ≠ protocol then none
    else some (if p.isWindows then hints.protocol else protocol)

/-- The name, where it can be a literal that needs no resolver. -/
def literalName (host : Option (List UInt8)) : Option (List UInt8) := do
  let name ← host
  -- a zone is for libc to interpret
  if name = [] ∨ '%'.toUInt8 ∈ name then none else some name

/-- The port that a service is parsed as. -/
def servicePort : Option (List UInt8) → Option UInt16
  | none => some 0
  | some text => (parseInt 65535 text).map .ofNat

/-- A link-local literal with a scope in its second pair of bytes, as Darwin has them. -/
def hasKameScope (a : Ip6) : Bool :=
  a[0] == 0xfe && a[1] &&& 0xc0 == 0x80 && (a[2] != 0 || a[3] != 0)

/-- What a name is a literal of. -/
inductive Literal
  | inet (a : Ip4)
  | inet6 (a : Ip6)

/-- What a name is a literal of, in the families that are asked for. -/
def parseLiteral (p : Platform) (libc : Libc) (family : ℤ) (name : List UInt8) : Option Literal :=
  let inet6 : Option Literal :=
    if family = p.afInet6 ∨ family = afUnspec then do
      let a ← libc.pton6 name
      if p.isDarwin && hasKameScope a then none else some (.inet6 a)
    else none
  if family = afInet ∨ family = afUnspec then
    match libc.pton4 name with
    | some a => some (.inet a)
    | none => inet6
  else inet6

/-- The family of a literal. -/
def Literal.family (p : Platform) : Literal → ℤ
  | inet _ => afInet
  | inet6 _ => p.afInet6

/-- A literal as a socket address. -/
def Literal.sockaddr (e : Endian) (port : UInt16) : Literal → Sockaddr
  | inet a => .inet (e.network16 port) a (Vector.replicate 8 0)
  | inet6 a => .inet6 (e.network16 port) 0 a 0

/-- `resolveLiteral`: a literal address without entering libc, none where only libc may answer. -/
def resolveLiteral (p : Platform) (libc : Libc) (inet : Inet) (hints : Hints)
    (host service : Option (List UInt8)) : Option (List Entry) := do
  let protocol ← literalProtocol p hints
  let name ← literalName host
  let port ← servicePort service
  let literal ← parseLiteral p libc hints.family name
  return finishLiteral p.endian inet (literal.family p) hints.socktype protocol
    (literal.sockaddr p.endian port)

/-! ## libc -/

/-- The port that a service denotes by the rules of libc for numeric services; no service denotes
port zero. -/
inductive Denotes : Option (List UInt8) → UInt16 → Prop
  | absent : Denotes none 0
  | numeric {text : List UInt8} {port : UInt16} :
    numeric text = some (port.toNat : ℤ) → Denotes (some text) port

/-- Hints of an ordinary request for one type of sockets. -/
structure Plain (p : Platform) (hints : Hints) (protocol : ℤ) : Prop where
  /-- No flag is given that changes the answer for a literal. -/
  flags : hints.flags &&& ~~~p.ignorable = 0
  /-- The protocol is that of the type. -/
  socktype : hints.socktype = sockStream ∧ protocol = ipprotoTcp ∨
    hints.socktype = sockDgram ∧ protocol = ipprotoUdp
  /-- No other is asked for. -/
  protocol : hints.protocol = 0 ∨ hints.protocol = protocol

/-- What libc answers for an address literal, with no zone and with a service that denotes a port:
one element, of the family of the literal and the type and the protocol asked for. -/
structure Libc.Lawful (p : Platform) (libc : Libc) : Prop where
  inet : ∀ {hints protocol name service port a}, p.isMusl = false → Plain p hints protocol →
    name ≠ [] → '%'.toUInt8 ∉ name → Denotes service port →
    hints.family = afInet ∨ hints.family = afUnspec → libc.pton4 name = some a →
    ∃ zero len, libc.getaddrinfo (some name) service hints = .ok
      [⟨afInet, hints.socktype, if p.isWindows then hints.protocol else protocol, none,
        some (.inet (p.endian.network16 port) a zero), len⟩]
  /-- Darwin takes the scope of a link-local address out of its bytes. -/
  inet6 : ∀ {hints protocol name service port a}, p.isMusl = false → Plain p hints protocol →
    name ≠ [] → '%'.toUInt8 ∉ name → Denotes service port →
    hints.family = p.afInet6 ∨ hints.family = afUnspec → libc.pton6 name = some a →
    (p.isDarwin && hasKameScope a) = false →
    ∃ len, libc.getaddrinfo (some name) service hints = .ok
      [⟨p.afInet6, hints.socktype, if p.isWindows then hints.protocol else protocol, none,
        some (.inet6 (p.endian.network16 port) 0 a 0), len⟩]

/-! ## What is claimed -/

/-- The port of an internet address. -/
def portOf : Value → Option ℤ
  | .tuple (_ :: .int port :: _) => some port
  | _ => none

/-- Whatever `resolveLiteral` answers is for the port that the service denotes by the rules of libc,
and libc answers the same list. -/
def AnswersAsLibc (p : Platform) (libc : Libc) (inet : Inet) (hints : Hints)
    (host service : Item) : Prop :=
  ∀ h s l, copyZ maxHost host "host" = .ok h → copyZ maxService service "port" = .ok s →
    resolveLiteral p libc inet hints h s = some l →
      ∃ port, Denotes s port ∧ (∀ e ∈ l, portOf e.address = some (port.toNat : ℤ)) ∧
        (libc.getaddrinfo h s hints).map (buildResults p.endian inet) = .ok l

/-- A request for a literal that `resolveLiteral` answers for, whatever the service. -/
def IsLiteral (p : Platform) (libc : Libc) (hints : Hints) (host : Option (List UInt8)) : Prop :=
  literalProtocol p hints ≠ none ∧
    ∃ name ∈ literalName host, parseLiteral p libc hints.family name ≠ none

/-- A service with an underscore that is parsed as a port nevertheless. -/
def Separated (service : Option (List UInt8)) : Prop :=
  servicePort service ≠ none ∧ ∃ text ∈ service, underscore ∈ text

variable {p : Platform} {libc : Libc} {inet : Inet} {hints : Hints} {protocol : ℤ}
  {host service : Option (List UInt8)} {name : List UInt8} {port : UInt16} {literal : Literal}

/-- What `literalProtocol` checks. -/
theorem plain_of_literalProtocol (h : literalProtocol p hints = some protocol) :
    p.isMusl = false ∧ ∃ implied, Plain p hints implied ∧
      protocol = if p.isWindows then hints.protocol else implied := by
  rw [literalProtocol] at h
  obtain ⟨hmusl, h⟩ := Option.ite_none_left_eq_some.mp h
  obtain ⟨hflags, h⟩ := Option.ite_none_left_eq_some.mp h
  obtain ⟨implied, himplied, h⟩ := Option.bind_eq_some_iff.mp h
  obtain ⟨hprotocol, h⟩ := Option.ite_none_left_eq_some.mp h
  refine ⟨Bool.eq_false_iff.mpr hmusl, implied, ⟨not_not.mp hflags, ?_, ?_⟩,
    (Option.some.inj h).symm⟩
  · rw [impliedProtocol] at himplied
    split at himplied
    · exact .inl ⟨‹_›, (Option.some.inj himplied).symm⟩
    · obtain ⟨hdgram, heq⟩ := Option.ite_none_right_eq_some.mp himplied
      exact .inr ⟨hdgram, (Option.some.inj heq).symm⟩
  · by_cases hzero : hints.protocol = 0
    · exact .inl hzero
    · exact .inr (not_not.mp (not_and.mp hprotocol hzero))

/-- What `literalName` checks. -/
theorem of_literalName (h : literalName host = some name) :
    host = some name ∧ name ≠ [] ∧ '%'.toUInt8 ∉ name := by
  obtain ⟨text, rfl, h⟩ := Option.bind_eq_some_iff.mp h
  obtain ⟨hno, heq⟩ := Option.ite_none_left_eq_some.mp h
  obtain rfl := Option.some.inj heq
  exact ⟨rfl, not_or.mp hno⟩

/-- What `parseLiteral` checks. -/
theorem of_parseLiteral (h : parseLiteral p libc hints.family name = some literal) :
    (∃ a, literal = .inet a ∧ (hints.family = afInet ∨ hints.family = afUnspec) ∧
        libc.pton4 name = some a) ∨
      ∃ a, literal = .inet6 a ∧ (hints.family = p.afInet6 ∨ hints.family = afUnspec) ∧
        libc.pton6 name = some a ∧ (p.isDarwin && hasKameScope a) = false := by
  rw [parseLiteral] at h
  have hinet6 : (if hints.family = p.afInet6 ∨ hints.family = afUnspec then do
        let a ← libc.pton6 name
        if p.isDarwin && hasKameScope a then none else some (.inet6 a)
      else none) = some literal →
      ∃ a, literal = .inet6 a ∧ (hints.family = p.afInet6 ∨ hints.family = afUnspec) ∧
        libc.pton6 name = some a ∧ (p.isDarwin && hasKameScope a) = false := by
    intro h
    obtain ⟨hfamily, h⟩ := Option.ite_none_right_eq_some.mp h
    obtain ⟨a, ha, h⟩ := Option.bind_eq_some_iff.mp h
    obtain ⟨hscope, heq⟩ := Option.ite_none_left_eq_some.mp h
    exact ⟨a, (Option.some.inj heq).symm, hfamily, ha, Bool.eq_false_iff.mpr hscope⟩
  split at h
  · rename_i hfamily
    cases h4 : libc.pton4 name with
    | some a =>
      simp only [h4] at h
      exact .inl ⟨a, (Option.some.inj h).symm, hfamily, rfl⟩
    | none =>
      simp only [h4] at h
      exact .inr (hinet6 h)
  · exact .inr (hinet6 h)

/-- A service that is parsed without an underscore denotes the port that it is parsed as. -/
theorem denotes_of_servicePort (hno : ∀ text ∈ service, underscore ∉ text)
    (h : servicePort service = some port) : Denotes service port := by
  cases service with
  | none =>
    obtain rfl := Option.some.inj h
    exact .absent
  | some text =>
    obtain ⟨n, hparse, rfl⟩ := Option.map_eq_some_iff.mp h
    have hn := parseInt_le hparse
    refine .numeric ((numeric_of_parseInt (hno text rfl) hparse).trans ?_)
    rw [UInt16.toNat_ofNat', Nat.mod_eq_of_lt (by omega)]

/-- A service with an underscore denotes no port. -/
theorem not_denotes {text : List UInt8} (hmem : underscore ∈ text) :
    ¬ Denotes (some text) port := by
  rintro ⟨⟩
  rename_i h
  rw [numeric_underscore hmem] at h
  cases h

/-- For a literal and a service that denotes a port, libc answers what `finishLiteral` builds. -/
theorem getaddrinfo_literal (hlibc : libc.Lawful p) (hmusl : p.isMusl = false) {implied : ℤ}
    (hplain : Plain p hints implied) (hname : name ≠ []) (hzone : '%'.toUInt8 ∉ name)
    (hport : Denotes service port) (h : parseLiteral p libc hints.family name = some literal) :
    (libc.getaddrinfo (some name) service hints).map (buildResults p.endian inet) =
      .ok (finishLiteral p.endian inet (literal.family p) hints.socktype
        (if p.isWindows then hints.protocol else implied) (literal.sockaddr p.endian port)) := by
  rcases of_parseLiteral h with ⟨a, rfl, hfamily, ha⟩ | ⟨a, rfl, hfamily, ha, hscope⟩
  · obtain ⟨zero, len, hget⟩ := hlibc.inet hmusl hplain hname hzone hport hfamily ha
    rw [hget]
    rfl
  · obtain ⟨len, hget⟩ := hlibc.inet6 hmusl hplain hname hzone hport hfamily ha hscope
    rw [hget]
    rfl

/-- The port in the answer is the port it was built with. -/
theorem portOf_finishLiteral (e : Endian) (family socktype : ℤ) :
    ∀ x ∈ finishLiteral e inet family socktype protocol (literal.sockaddr e port),
      portOf x.address = some (port.toNat : ℤ) := by
  intro x hx
  obtain rfl := List.mem_singleton.mp hx
  cases literal <;>
    simp [Literal.sockaddr, toPython, portOf]

/-- Whatever `resolveLiteral` answers, libc answers too, for the port that the service denotes:
unless the request is for a literal and the service is one that is parsed in spite of an
underscore. -/
theorem answers_as_libc_iff (hlibc : libc.Lawful p) (inet : Inet) (hints : Hints)
    (host service : Item) :
    AnswersAsLibc p libc inet hints host service ↔
      ¬ ∃ h s, copyZ maxHost host "host" = .ok h ∧ copyZ maxService service "port" = .ok s ∧
        IsLiteral p libc hints h ∧ Separated s := by
  constructor
  · rintro hall ⟨h, s, hhost, hservice, ⟨hprotocol, name, hname, hliteral⟩, hparsed, text, hs, hmem⟩
    obtain ⟨protocol, hprotocol⟩ := Option.ne_none_iff_exists'.mp hprotocol
    obtain ⟨port, hport⟩ := Option.ne_none_iff_exists'.mp hparsed
    obtain ⟨literal, hliteral⟩ := Option.ne_none_iff_exists'.mp hliteral
    obtain rfl : s = some text := hs
    -- all the rest being in order, `resolveLiteral` answers
    have hanswer : resolveLiteral p libc inet hints h (some text) =
        some (finishLiteral p.endian inet (literal.family p) hints.socktype protocol
          (literal.sockaddr p.endian port)) := by
      rw [resolveLiteral, hprotocol, Option.mem_def.mp hname, hport]
      simp [hliteral]
    obtain ⟨port', hdenotes, -⟩ := hall h _ _ hhost hservice hanswer
    exact not_denotes hmem hdenotes
  · intro hnot h s l hhost hservice hanswer
    rw [resolveLiteral] at hanswer
    obtain ⟨protocol, hprotocol, hanswer⟩ := Option.bind_eq_some_iff.mp hanswer
    obtain ⟨name, hname, hanswer⟩ := Option.bind_eq_some_iff.mp hanswer
    obtain ⟨port, hport, hanswer⟩ := Option.bind_eq_some_iff.mp hanswer
    obtain ⟨literal, hliteral, hanswer⟩ := Option.bind_eq_some_iff.mp hanswer
    obtain rfl := Option.some.inj hanswer
    have hno : ∀ text ∈ s, underscore ∉ text := fun text hs hmem =>
      hnot ⟨h, s, hhost, hservice, ⟨Option.ne_none_iff_exists'.mpr ⟨_, hprotocol⟩, name, hname,
        Option.ne_none_iff_exists'.mpr ⟨_, hliteral⟩⟩, Option.ne_none_iff_exists'.mpr ⟨_, hport⟩,
        text, hs, hmem⟩
    have hdenotes := denotes_of_servicePort hno hport
    obtain ⟨hmusl, implied, hplain, rfl⟩ := plain_of_literalProtocol hprotocol
    obtain ⟨rfl, hne, hzone⟩ := of_literalName hname
    exact ⟨port, hdenotes, portOf_finishLiteral _ _ _,
      getaddrinfo_literal hlibc hmusl hplain hne hzone hdenotes hliteral⟩

/-! ## A resolver -/

/-- Linux, with the C library of GNU. -/
def linux : Platform := ⟨.little, false, false, false, 10, 0x400⟩

/-- `EAI_NONAME` -/
def eaiNoname : ℤ := -2

/-- The port that a numeric service asks for. -/
def numericPort : Option (List UInt8) → Option UInt16
  | none => some 0
  | some text => (numeric text).bind fun n =>
    if 0 ≤ n ∧ n ≤ 65535 then some (.ofNat n.toNat) else none

/-- A C library that knows one literal, `127.0.0.1`, and no names. -/
def loopbackLibc : Libc where
  pton4 := loopbackInet.pton4
  pton6 _ := none
  getaddrinfo host service hints :=
    match host.bind loopbackInet.pton4, numericPort service, impliedProtocol hints.socktype with
    | some a, some port, some protocol => .ok
        [⟨afInet, hints.socktype, protocol, none,
          some (.inet (linux.endian.network16 port) a (Vector.replicate 8 0)), 16⟩]
    | _, _, _ => .error eaiNoname

theorem numericPort_of_denotes (h : Denotes service port) : numericPort service = some port := by
  cases h with
  | absent => rfl
  | numeric h =>
    have hlt := port.toNat_lt
    rw [numericPort, h, Option.bind_some, if_pos (by omega)]
    simp

theorem Plain.impliedProtocol (h : Plain p hints protocol) :
    impliedProtocol hints.socktype = some protocol := by
  rcases h.socktype with ⟨htype, rfl⟩ | ⟨htype, rfl⟩
  · rw [htype]
    rfl
  · rw [htype]
    rfl

theorem loopbackLibc_lawful : loopbackLibc.Lawful linux where
  inet := by
    intro hints protocol name service port a _ hplain _ _ hport _ ha
    refine ⟨Vector.replicate 8 0, 16, ?_⟩
    have hname : (some name).bind loopbackInet.pton4 = some a := ha
    simp only [loopbackLibc, hname, numericPort_of_denotes hport, hplain.impliedProtocol]
    rfl
  inet6 := by
    intro hints protocol name service port a _ _ _ _ _ _ ha
    cases ha

/-- A request for a stream socket, in any family. -/
def streamHints : Hints := ⟨0, afUnspec, sockStream, 0⟩

/-- A port in digits is answered as libc answers it. -/
theorem answers_as_libc_digits : AnswersAsLibc linux loopbackLibc loopbackInet streamHints
    (.bytes (ascii "127.0.0.1")) (.bytes (ascii "80")) := by
  refine (answers_as_libc_iff loopbackLibc_lawful loopbackInet streamHints _ _).mpr ?_
  rintro ⟨h, s, -, hservice, -, -, text, hs, hmem⟩
  have hcopy : copyZ maxService (.bytes (ascii "80")) "port" = .ok (some (ascii "80")) := by decide
  obtain rfl := Except.ok.inj (hcopy.symm.trans hservice)
  obtain rfl := Option.some.inj hs
  exact absurd hmem (by decide)

/-- A service with an underscore is answered with a port, though libc knows of no such service. -/
theorem not_answers_as_libc :
    loopbackLibc.Lawful linux ∧
      loopbackLibc.getaddrinfo (some (ascii "127.0.0.1")) (some (ascii "8_0")) streamHints =
        .error eaiNoname ∧
      ¬ AnswersAsLibc linux loopbackLibc loopbackInet streamHints
        (.bytes (ascii "127.0.0.1")) (.bytes (ascii "8_0")) := by
  refine ⟨loopbackLibc_lawful, rfl, fun hall => ?_⟩
  have hanswer : resolveLiteral linux loopbackLibc loopbackInet streamHints
      (some (ascii "127.0.0.1")) (some (ascii "8_0")) =
        some (finishLiteral .little loopbackInet afInet sockStream ipprotoTcp
          (.inet (Endian.little.network16 80) loopback4 (Vector.replicate 8 0))) := rfl
  obtain ⟨port, -, -, hlibc⟩ := hall _ _ _ rfl rfl hanswer
  cases hlibc

end Zuvloop.Dns
