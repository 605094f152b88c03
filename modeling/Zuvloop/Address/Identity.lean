import Mathlib.Data.List.TakeWhile
import Mathlib.Tactic.Common
import Zuvloop.Address.Sockaddr

/-!
# What an address keeps of itself on the way to Python and back

## Main definitions

* `RoundTrips`: an `AF_UNIX` address comes back as the same address;
* `socketInet6`, `AgreesWithSocket`: what the `socket` module makes of an IPv6 tuple, and what it
  is for the conversions here to mean the same.

## Main results

* `same_iff_toPython_eq`: two addresses are the same if and only if their Python values are equal;
* `unix_round_trips_iff`: which `AF_UNIX` addresses come back;
* `inet6_agrees_iff`: for which flow labels IPv6 addresses mean the same as in the `socket` module.
-/

namespace Zuvloop.Address

open ByteOrder Text

variable {e : Endian} {inet : Inet}

/-! ## Names of `AF_UNIX` sockets -/

/-- The bytes of a name: it is abstract, or it holds no terminator. -/
def IsName (name : List UInt8) : Prop := name.head? = some 0 ∨ 0 ∉ name

/-- The Python value of a socket with a name, none for an unnamed one. -/
def nameValue : List UInt8 → Value
  | [] => .item .none
  | b :: name =>
    if b = 0 then .item (.bytes (b :: name)) else .item (.str (decode (b :: name)))

theorem nameValue_injective : Function.Injective nameValue := by
  intro name name' h
  rcases name with _ | ⟨b, name⟩ <;> rcases name' with _ | ⟨b', name'⟩
  · rfl
  · simp only [nameValue] at h
    split at h <;> cases h
  · simp only [nameValue] at h
    split at h <;> cases h
  · simp only [nameValue] at h
    -- a string is never equal to bytes
    split at h <;> split at h
    · exact Item.bytes.inj (Value.item.inj h)
    · cases h
    · cases h
    · exact decode_injective (Item.str.inj (Value.item.inj h))

/-- A socket is unnamed when its length says so, and otherwise its name begins where its path
does. -/
theorem head?_unixName (path : UnixPath) {len : ℕ} (h : unBase < len) :
    (unixName path len).head? = some path[0] := by
  have hn : min (len - unBase) 108 ≠ 0 := by omega
  have hhead := head?_take path hn
  rw [unixName, if_neg (by omega)]
  dsimp only
  split
  · exact hhead
  · rename_i hpath
    obtain ⟨tail, htail⟩ := List.head?_eq_some_iff.mp hhead
    rw [htail, List.takeWhile_cons_of_pos (by simpa using hpath)]
    rfl

theorem isName_unixName (path : UnixPath) (len : ℕ) : IsName (unixName path len) := by
  by_cases h : unBase < len
  · by_cases hpath : path[0] = 0
    · exact .inl ((head?_unixName path h).trans (congrArg some hpath))
    · refine .inr fun hmem => ?_
      rw [unixName, if_neg (by omega), if_neg hpath] at hmem
      simpa using List.all_eq_true.mp List.all_takeWhile 0 hmem
  · rw [unixName, if_pos (by omega)]
    exact .inr List.not_mem_nil

theorem toPython_unix (path : UnixPath) (len : ℕ) :
    toPython e inet (.unix path) len = nameValue (unixName path len) := by
  rw [toPython]
  split
  · rw [unixName, if_pos ‹_›]
    rfl
  · obtain ⟨name, hname⟩ := List.head?_eq_some_iff.mp (head?_unixName path (Nat.lt_of_not_le ‹_›))
    rw [hname, nameValue]

theorem nameValue_ne_tuple (name : List UInt8) (items : List Item) :
    nameValue name ≠ .tuple items := by
  intro h
  rcases name with _ | ⟨b, name⟩
  · cases h
  · rw [nameValue] at h
    split at h <;> cases h

/-! ## Identity -/

theorem hostString_inj {host host' : List Char} : hostString host = hostString host' ↔
    host = host' := by
  refine ⟨fun h => ?_, congrArg _⟩
  have hmap := congrArg (List.filterMap char?) (Item.str.inj h)
  simpa [List.filterMap_map, Function.comp_def] using hmap

theorem network16_toNat_inj {port port' : UInt16} :
    (e.network16 port).toNat = (e.network16 port').toNat ↔ port = port' := by
  rw [UInt16.toNat_inj, e.network16_injective.eq_iff]

/-- The text of one address as it is written, and for every other address a text that no numeric
address has. -/
def textOf {n : ℕ} (known : Vector UInt8 n) (text : List Char) (a : Vector UInt8 n) : List Char :=
  if a = known then text else a.toList.map fun b => Char.ofNat (0x100 + b.toNat)

/-- `127.0.0.1` -/
def loopback4 : Ip4 := #v[127, 0, 0, 1]

/-- `::1` -/
def loopback6 : Ip6 := #v[0, 0, 0, 0, 0, 0, 0, 0, 0, 0, 0, 0, 0, 0, 0, 1]

/-- The loopback addresses, as libuv reads and writes them. -/
def loopbackInet : Inet where
  pton4 text := if text = ascii "127.0.0.1" then some loopback4 else none
  pton6 text := if text = ascii "::1" then some loopback6 else none
  ntop4 := textOf loopback4 ['1', '2', '7', '.', '0', '.', '0', '.', '1']
  ntop6 := textOf loopback6 [':', ':', '1']
  ifNameToIndex _ := 0

theorem textOf_injective {n : ℕ} (known : Vector UInt8 n) (text : List Char) (hn : 0 < n)
    (htext : ∀ c ∈ text, c.toNat < 0x100) : Function.Injective (textOf known text) := by
  have hchar : ∀ b : UInt8, (Char.ofNat (0x100 + b.toNat)).toNat = 0x100 + b.toNat := fun b => by
    have hb := b.toNat_lt
    rw [Char.ofNat, dif_pos (.inl (by omega))]
    rfl
  -- the text of no other address begins with a character of the known text
  have hother (a : Vector UInt8 n) :
      a.toList.map (fun b => Char.ofNat (0x100 + b.toNat)) ≠ text := by
    intro heq
    have hmem : Char.ofNat (0x100 + (a[0]).toNat) ∈ text := by
      rw [← heq]
      exact List.mem_map_of_mem (by simp)
    have hlt := htext _ hmem
    rw [hchar] at hlt
    omega
  intro a a' h
  unfold textOf at h
  split at h <;> split at h
  · exact ‹a = known›.trans ‹a' = known›.symm
  · exact absurd h.symm (hother a')
  · exact absurd h (hother a)
  · refine Vector.toList_inj.mp (List.map_injective_iff.mpr (fun b b' hb => ?_) h)
    have hnat := congrArg Char.toNat hb
    rw [hchar, hchar] at hnat
    exact UInt8.toNat_inj.mp (by omega)

/-- Two addresses name the same endpoint if and only if they are the same Python value. -/
theorem same_iff_toPython_eq (e : Endian) (inet : Inet) (h4 : Function.Injective inet.ntop4)
    (h6 : Function.Injective inet.ntop6) (a b : Sockaddr) (ha : a.Known) (hb : b.Known)
    (la lb : ℕ) : same a la b lb = true ↔ toPython e inet a la = toPython e inet b lb := by
  cases a with
  | other => exact ha.elim
  | unix path =>
    rw [toPython_unix]
    cases b with
    | other => exact hb.elim
    | unix path' =>
      rw [toPython_unix, nameValue_injective.eq_iff]
      exact beq_iff_eq
    -- a name never becomes a tuple
    | inet => exact iff_of_false Bool.false_ne_true (nameValue_ne_tuple _ _)
    | inet6 => exact iff_of_false Bool.false_ne_true (nameValue_ne_tuple _ _)
  | inet port addr zero =>
    cases b with
    | other => exact hb.elim
    | unix path' =>
      rw [toPython_unix]
      exact iff_of_false Bool.false_ne_true (nameValue_ne_tuple _ _).symm
    | inet port' addr' zero' =>
      simp only [same, toPython, Bool.and_eq_true, beq_iff_eq, Value.tuple.injEq,
        List.cons.injEq, hostString_inj, h4.eq_iff, Item.int.injEq, Int.natCast_inj,
        network16_toNat_inj, and_true]
      exact and_comm
    | inet6 => simp [same, toPython]
  | inet6 port flowinfo addr scopeId =>
    cases b with
    | other => exact hb.elim
    | unix path' =>
      rw [toPython_unix]
      exact iff_of_false Bool.false_ne_true (nameValue_ne_tuple _ _).symm
    | inet => simp [same, toPython]
    | inet6 port' flowinfo' addr' scopeId' =>
      simp only [same, toPython, Bool.and_eq_true, beq_iff_eq, Value.tuple.injEq,
        List.cons.injEq, hostString_inj, h6.eq_iff, Item.int.injEq, Int.natCast_inj,
        network16_toNat_inj, UInt32.toNat_inj, and_true]
      tauto

theorem same_iff_toPython_eq_loopback :
    same (.inet6 0x5000 0 loopback6 0) 28 (.inet6 0x5000 1 loopback6 0) 28 = true ↔
      toPython .little loopbackInet (.inet6 0x5000 0 loopback6 0) 28 =
        toPython .little loopbackInet (.inet6 0x5000 1 loopback6 0) 28 :=
  same_iff_toPython_eq .little loopbackInet (textOf_injective _ _ (by simp) (by simp))
    (textOf_injective _ _ (by simp) (by simp)) (.inet6 0x5000 0 loopback6 0)
    (.inet6 0x5000 1 loopback6 0) trivial trivial 28 28

/-! ## `AF_UNIX` addresses come back -/

/-- What `toPython` makes of an `AF_UNIX` address, `fromPython` turns into the same address. -/
def RoundTrips (e : Endian) (inet : Inet) (path : UnixPath) (len : ℕ) : Prop :=
  ∃ sa len', fromPython e inet afUnix (toPython e inet (.unix path) len) = .ok (sa, len') ∧
    same sa len' (.unix path) len = true

theorem toList_storePath {name : List UInt8} (h : name.length < 108) :
    (storePath name h).toList = name ++ List.replicate (108 - name.length) 0 := rfl

/-- A name that fits is stored with its length, and read back. -/
theorem unixName_storePath {name : List UInt8} (hname : IsName name) (h : name.length < 108) :
    unixName (storePath name h) (unBase + name.length) = name := by
  rcases eq_or_ne name [] with rfl | hne
  · exact if_pos (Nat.le_refl _)
  have hpos : 0 < name.length := List.length_pos_iff.mpr hne
  have hmin : min (unBase + name.length - unBase) 108 = name.length := by omega
  rw [unixName, if_neg (by omega), hmin, toList_storePath, List.take_left]
  split
  · rfl
  · rename_i hpath
    have hhead : name.head? = some (storePath name h)[0] := by
      rw [← head?_take _ (Nat.ne_of_gt hpos), toList_storePath, List.take_left]
    have hmem : 0 ∉ name := hname.resolve_left fun h₀ =>
      hpath (Option.some.inj (hhead.symm.trans h₀))
    refine List.takeWhile_eq_self_iff.mpr fun b hb => ?_
    exact decide_eq_true fun hzero => hmem (hzero ▸ hb)

theorem fromPath_name {name : List UInt8} (hname : IsName name) (h : name.length < 108) :
    fromPath name = .ok (.unix (storePath name h), unBase + name.length) := by
  rw [fromPath, dif_pos h, if_neg]
  rintro ⟨-, hhead, hmem⟩
  exact hname.elim hhead fun hnot => hnot hmem

theorem fromPath_of_le {name : List UInt8} (h : 108 ≤ name.length) :
    fromPath name = .error (.valueError "AF_UNIX path too long") :=
  dif_neg (Nat.not_lt.mpr h)

/-- What becomes of the value of a named socket. -/
theorem fromPython_nameValue {name : List UInt8} (hne : name ≠ []) :
    fromPython e inet afUnix (nameValue name) =
      if name.head? = some 0 ∨ IsUtf8 name then fromPath name
      else .error .unicodeEncodeError := by
  obtain ⟨b, tail, rfl⟩ := List.exists_cons_of_ne_nil hne
  rw [List.head?_cons]
  by_cases hb : b = 0
  · have hvalue : nameValue (b :: tail) = .item (.bytes (b :: tail)) := if_pos hb
    rw [hvalue, if_pos (.inl (congrArg some hb))]
    rfl
  · have hvalue : nameValue (b :: tail) = .item (.str (decode (b :: tail))) := if_neg hb
    have hhead : some b ≠ some 0 := fun h => hb (Option.some.inj h)
    rw [hvalue]
    by_cases hutf : IsUtf8 (b :: tail)
    · rw [if_pos (.inr hutf), fromPython, if_pos rfl, asUtf8, encodeStrict_decode_of_isUtf8 hutf]
      rfl
    · rw [if_neg (not_or.mpr ⟨hhead, hutf⟩), fromPython, if_pos rfl, asUtf8,
        encodeStrict_decode_of_not_isUtf8 hutf]
      rfl

/-- The `AF_UNIX` addresses that come back: those with a name of less than 108 bytes that is
abstract or UTF-8. -/
theorem unix_round_trips_iff (e : Endian) (inet : Inet) (path : UnixPath) (len : ℕ)
    (hlen : unBase < len) :
    RoundTrips e inet path len ↔ (unixName path len).length < 108 ∧
      (path[0] = 0 ∨ IsUtf8 (unixName path len)) := by
  have hhead := head?_unixName path hlen
  have hne : unixName path len ≠ [] := by
    intro h
    rw [h] at hhead
    cases hhead
  have hname := isName_unixName path len
  simp only [RoundTrips, toPython_unix, fromPython_nameValue hne, hhead, Option.some.injEq]
  constructor
  · rintro ⟨sa, len', hok, -⟩
    split at hok
    · rename_i hcodec
      refine ⟨Nat.lt_of_not_le fun hle => ?_, hcodec⟩
      rw [fromPath_of_le hle] at hok
      cases hok
    · cases hok
  · rintro ⟨hshort, hcodec⟩
    rw [if_pos hcodec]
    refine ⟨_, _, fromPath_name hname hshort, ?_⟩
    exact beq_iff_eq.mpr (unixName_storePath hname hshort)

/-- `UTF-8` names come back: the pathname `a`, its terminator counted. -/
theorem unix_round_trips_iff_utf8 :
    RoundTrips .little loopbackInet (storePath [0x61] (by decide)) 3 :=
  (unix_round_trips_iff .little loopbackInet _ 3 (by decide)).mpr
    ⟨by decide, Or.inr ⟨['a'], by decide⟩⟩

/-- A name of one byte that is not UTF-8 does not come back. -/
theorem not_unix_round_trips : ¬∀ (path : UnixPath) (len : ℕ), unBase < len → len ≤ unBase + 108 →
    RoundTrips .little loopbackInet path len := by
  intro h
  obtain ⟨sa, len', hok, -⟩ := h (storePath [0xff] (by decide)) 3 (by decide) (by decide)
  have herror : fromPython .little loopbackInet afUnix (toPython .little loopbackInet
      (.unix (storePath [0xff] (by decide))) 3) = .error .unicodeEncodeError := by decide
  rw [herror] at hok
  cases hok

/-! ## IPv6 addresses and the `socket` module -/

/-- The tuple `(host, port, flowinfo, scope_id)`. -/
def inet6Tuple (host : List CodePoint) (port : UInt16) (flowinfo scopeId : UInt32) : Value :=
  .tuple [.str host, .int port.toNat, .int flowinfo.toNat, .int scopeId.toNat]

/-- Text of an IPv6 address, perhaps with a zone. -/
structure Literal (inet : Inet) (host : List CodePoint) (a : Ip6) : Prop where
  /-- The address is in the text that the string encodes to. -/
  denotes : ∃ text, encodeStrict host = some text ∧ text.length < 256 ∧ 0 ∉ text ∧
    inet.address6 text = some a

/-- What the `socket` module stores for a tuple: port and flow label in network byte order. -/
def socketInet6 (e : Endian) (a : Ip6) (port : UInt16) (flowinfo scopeId : UInt32) : Sockaddr :=
  .inet6 (e.network16 port) (e.network32 flowinfo) a scopeId

/-- A tuple means here what it means in the `socket` module. A host is compared as the address it
denotes, and given back as libuv writes that address. -/
structure AgreesWithSocket (e : Endian) (inet : Inet) (host : List CodePoint) (a : Ip6)
    (port : UInt16) (flowinfo scopeId : UInt32) : Prop where
  /-- The same address is built, field by field. -/
  built : fromPython e inet afInet6 (inet6Tuple host port flowinfo scopeId) =
    .ok (socketInet6 e a port flowinfo scopeId, 28)
  /-- What is built becomes the tuple again. -/
  read : ∀ sa len, fromPython e inet afInet6 (inet6Tuple host port flowinfo scopeId) =
    .ok (sa, len) →
      toPython e inet sa len = inet6Tuple ((inet.ntop6 a).map ofChar) port flowinfo scopeId
  /-- An endpoint that the `socket` module connected to the tuple accepts it and no other. -/
  accepted : ∀ host' a' port' flowinfo' scopeId', Literal inet host' a' →
    flowinfo'.toNat ≤ 0xfffff →
      (sendtoDestination e inet afInet6 true (some (socketInet6 e a port flowinfo scopeId, 28))
          (inet6Tuple host' port' flowinfo' scopeId') = .ok none ↔
        a' = a ∧ port' = port ∧ flowinfo' = flowinfo ∧ scopeId' = scopeId)

theorem asIsizeClamped_nat {n : ℕ} (h : n ≤ 0xffffffff) : asIsizeClamped (.int n) = .ok n := by
  rw [asIsizeClamped]
  congr 1
  omega

theorem ok_bind {α β : Type} (x : α) (f : α → Except Error β) :
    (Except.ok x >>= f) = f x := rfl

theorem hostText_literal {host : List CodePoint} {text : List UInt8} (family : ℤ)
    (htext : encodeStrict host = some text) (hlen : text.length < 256) (hzero : 0 ∉ text) :
    hostText family (.str host) = .ok text := by
  have hutf : asUtf8 (.str host) = .ok text := by rw [asUtf8, htext]
  simp only [hostText, hutf, ok_bind, if_neg (Nat.not_le.mpr hlen), if_neg hzero]
  rfl

theorem setInet6Fields_tuple {host : List CodePoint} {port : UInt16} {flowinfo : UInt32}
    (hflow : flowinfo.toNat ≤ 0xfffff) (scopeId : UInt32) (port' : UInt16) (a : Ip6)
    (flowinfo' scopeId' : UInt32) :
    setInet6Fields [.str host, .int port.toNat, .int flowinfo.toNat, .int scopeId.toNat]
      (.inet6 port' flowinfo' a scopeId') = .ok (.inet6 port' flowinfo a scopeId) := by
  have hscope := scopeId.toNat_lt
  have hflow' : asIsizeClamped (.int flowinfo.toNat) = .ok flowinfo.toNat :=
    asIsizeClamped_nat (by omega)
  have hscope' : asIsizeClamped (.int scopeId.toNat) = .ok scopeId.toNat :=
    asIsizeClamped_nat (by omega)
  have hflowRange : ¬((flowinfo.toNat : ℤ) < 0 ∨ 0xfffff < (flowinfo.toNat : ℤ)) := by omega
  have hscopeRange : ¬((scopeId.toNat : ℤ) < 0 ∨ 0xffffffff < (scopeId.toNat : ℤ)) := by omega
  simp only [setInet6Fields, List.getElem?_cons_succ, List.getElem?_cons_zero, hflow', hscope',
    ok_bind, if_neg hflowRange, if_neg hscopeRange, pure_bind, Int.toNat_natCast,
    UInt32.ofNat_toNat]
  rfl

/-- The address that is built from a tuple. The flow label is stored as it is. -/
theorem fromPython_inet6 {host : List CodePoint} {a : Ip6} (h : Literal inet host a)
    (port : UInt16) {flowinfo : UInt32} (hflow : flowinfo.toNat ≤ 0xfffff) (scopeId : UInt32) :
    fromPython e inet afInet6 (inet6Tuple host port flowinfo scopeId) =
      .ok (.inet6 (e.network16 port) flowinfo a scopeId, 28) := by
  obtain ⟨text, htext, hlen, hzero, haddress⟩ := h.denotes
  have hport := port.toNat_lt
  have hrange : ¬ ((port.toNat : ℤ) < 0 ∨ (65535 : ℤ) < port.toNat) := by omega
  have hport' : asIsizeClamped (.int port.toNat) = .ok port.toNat :=
    asIsizeClamped_nat (by omega)
  have hbuilt : uvIp6Addr e inet text port = .ok (.inet6 (e.network16 port) 0 a
      (inet.zone6 text)) := by rw [uvIp6Addr, haddress]
  change fromTuple e inet afInet6 [.str host, _, _, _] = _
  simp only [fromTuple, hport', hostText_literal _ htext hlen hzero, ok_bind, if_neg hrange,
    true_or, if_true, Int.toNat_natCast, UInt16.ofNat_toNat, hbuilt,
    setInet6Fields_tuple hflow]
  rfl

/-- A connected endpoint accepts the tuples that are built into the address of its peer. -/
theorem sendto_accepts_iff {family : ℤ} {items : List Item} {dest peer : Sockaddr × ℕ}
    (hdest : fromPython e inet family (.tuple items) = .ok dest) :
    sendtoDestination e inet family true (some peer) (.tuple items) = .ok none ↔
      same dest.1 dest.2 peer.1 peer.2 = true := by
  simp only [sendtoDestination, hdest, ok_bind, if_true]
  cases hsame : same dest.1 dest.2 peer.1 peer.2 with
  | true => exact iff_of_true rfl rfl
  | false =>
    refine iff_of_false (fun h => ?_) Bool.false_ne_true
    cases h

/-- IPv6 addresses mean the same as in the `socket` module exactly when the flow label reads the
same in network byte order. -/
theorem inet6_agrees_iff (e : Endian) (inet : Inet) (host : List CodePoint) (a : Ip6)
    (h : Literal inet host a) (port : UInt16) (flowinfo : UInt32)
    (hflow : flowinfo.toNat ≤ 0xfffff) (scopeId : UInt32) :
    AgreesWithSocket e inet host a port flowinfo scopeId ↔
      e.network32 flowinfo = flowinfo := by
  constructor
  · intro hagrees
    have hbuilt := hagrees.built
    rw [fromPython_inet6 h port hflow scopeId, socketInet6] at hbuilt
    exact (Sockaddr.inet6.inj (Prod.mk.inj (Except.ok.inj hbuilt)).1).2.1.symm
  · intro hswap
    refine ⟨?_, fun sa len hok => ?_, fun host' a' port' flowinfo' scopeId' h' hflow' => ?_⟩
    · rw [fromPython_inet6 h port hflow scopeId, socketInet6, hswap]
    · rw [fromPython_inet6 h port hflow scopeId] at hok
      obtain ⟨rfl, rfl⟩ := Prod.mk.inj (Except.ok.inj hok)
      rw [toPython, e.network16_network16]
      rfl
    · have hdest := @fromPython_inet6 e inet host' a' h' port' _ hflow' scopeId'
      rw [inet6Tuple] at hdest ⊢
      rw [sendto_accepts_iff hdest, socketInet6, hswap]
      simp only [same, Bool.and_eq_true, beq_iff_eq, e.network16_injective.eq_iff]
      tauto

/-- The loopback address, as text. -/
theorem literal_loopback : Literal loopbackInet ("::1".toList.map ofChar)
    loopback6 :=
  ⟨ascii "::1", by decide, by decide, by decide, by decide⟩

theorem inet6_agrees_iff_loopback :
    AgreesWithSocket .little loopbackInet ("::1".toList.map ofChar)
      loopback6 80 0x10100 0 ↔
        Endian.little.network32 0x10100 = 0x10100 :=
  inet6_agrees_iff .little loopbackInet _ _ literal_loopback 80 0x10100 (by decide) 0

/-- The flow label 1 is stored in the wrong order on a machine that is not big-endian. -/
theorem not_inet6_agrees : ¬∀ (host : List CodePoint) (a : Ip6), Literal loopbackInet host a →
    ∀ (port : UInt16) (flowinfo scopeId : UInt32), flowinfo.toNat ≤ 0xfffff →
      AgreesWithSocket .little loopbackInet host a port flowinfo scopeId := by
  intro h
  have hbuilt := (h _ _ literal_loopback 80 1 0 (by decide)).built
  have hstored : fromPython .little loopbackInet afInet6
      (inet6Tuple ("::1".toList.map ofChar) 80 1 0) = .ok (.inet6 0x5000 1
        loopback6 0, 28) := by decide
  rw [hstored] at hbuilt
  exact absurd hbuilt (by decide)

end Zuvloop.Address
