import Zuvloop.Address.Identity
import Zuvloop.Presentation.Shorthand

/-!
# Internet addresses on the way to Python and back

The conversions of `zig/addr.zig` with the text that libuv itself reads and writes
(`vendor/libuv/src/inet.c`) in place of the parameter.

## Main definitions

* `uvInet`: libuv, with `if_nametoindex` as it may be;
* `Sockaddr.family`, `Sockaddr.size`: what the kernel reports with an address.

## Main results

* `inet_round_trips_iff`: which internet addresses come back;
* `sendto_peer_iff`: which peers may be named to `sendto` on a connected endpoint, in the form in
  which `datagram_received` names a sender.
-/

namespace Zuvloop.Presentation

open Text
open Address (Ip4 Ip6)

/-! ## The bytes of the text -/

/-- The bytes that text of an address consists of. -/
def alphabet : List UInt8 :=
  xdigitsL.toList.map byteOf ++ xdigitsU.toList.map byteOf ++ [colon, dot]

theorem mem_alphabet_of_xdigit {c : UInt8} {d : ℕ} (h : xdigit c = some d) : c ∈ alphabet := by
  rw [alphabet, List.append_assoc]
  rcases Option.or_eq_some_iff.mp h with h | ⟨-, h⟩
  · exact List.mem_append_left _ (List.mem_of_getElem? (getElem?_of_strchr h))
  · exact List.mem_append_right _ (List.mem_append_left _
      (List.mem_of_getElem? (getElem?_of_strchr h)))

theorem colon_mem_alphabet : colon ∈ alphabet := by decide

theorem dot_mem_alphabet : dot ∈ alphabet := by decide

theorem mem_alphabet_of_mem_printed {c : UInt8} {n : ℕ} (h : c ∈ printed 10 n) :
    c ∈ alphabet := by
  obtain ⟨d, hd⟩ := exists_xdigit_of_mem_printed h
  exact mem_alphabet_of_xdigit hd

theorem mem_alphabet_of_mem_dotted {c : UInt8} {a : Ip4} (h : c ∈ dotted a) : c ∈ alphabet := by
  simp only [dotted, List.mem_append, List.mem_cons] at h
  rcases h with h | rfl | h | rfl | h | rfl | h
  · exact mem_alphabet_of_mem_printed h
  · exact dot_mem_alphabet
  · exact mem_alphabet_of_mem_printed h
  · exact dot_mem_alphabet
  · exact mem_alphabet_of_mem_printed h
  · exact dot_mem_alphabet
  · exact mem_alphabet_of_mem_printed h

theorem not_colon_mem_dotted (a : Ip4) : colon ∉ dotted a := by
  have hprinted (n : ℕ) : colon ∉ printed 10 n := by
    intro h
    obtain ⟨d, hd⟩ := exists_xdigit_of_mem_printed h
    rw [show xdigit colon = none from by decide] at hd
    cases hd
  have hdot : colon ≠ dot := by decide
  simp [dotted, hprinted, hdot]

theorem Groups.mem_alphabet {quad : Bool} {s bs : List UInt8} (h : Groups quad s bs) :
    ∀ c ∈ s, c ∈ alphabet := by
  induction h with
  | hextet h =>
    intro c hc
    obtain ⟨d, hd⟩ := exists_of_hexFrom h.value hc
    exact mem_alphabet_of_xdigit hd
  | dotted a => exact fun c => mem_alphabet_of_mem_dotted
  | cons h _ ih =>
    intro c hc
    rcases List.mem_append.mp hc with hc | hc
    · obtain ⟨d, hd⟩ := exists_of_hexFrom h.value hc
      exact mem_alphabet_of_xdigit hd
    · rcases List.mem_cons.mp hc with rfl | hc
      · exact colon_mem_alphabet
      · exact ih c hc

theorem OptGroups.mem_alphabet {quad : Bool} {s bs : List UInt8} (h : OptGroups quad s bs) :
    ∀ c ∈ s, c ∈ alphabet := by
  rcases h with ⟨rfl, -⟩ | h
  · exact nofun
  · exact h.mem_alphabet

theorem Denotes.mem_alphabet {s : List UInt8} {a : Ip6} (h : Denotes s a) :
    ∀ c ∈ s, c ∈ alphabet := by
  cases h with
  | full h => exact h.mem_alphabet
  | gap h₁ h₂ =>
    intro c hc
    rcases List.mem_append.mp hc with hc | hc
    · exact h₁.mem_alphabet c hc
    · rcases List.mem_cons.mp hc with rfl | hc
      · exact colon_mem_alphabet
      · rcases List.mem_cons.mp hc with rfl | hc
        · exact colon_mem_alphabet
        · exact h₂.mem_alphabet c hc

/-- One group is not an address. -/
theorem Groups.colon_mem {quad : Bool} {s bs : List UInt8} (h : Groups quad s bs)
    (hlength : 4 < bs.length) : colon ∈ s := by
  cases h with
  | hextet => simp at hlength
  | dotted a => simp at hlength
  | cons => exact List.mem_append_right _ List.mem_cons_self

theorem Denotes.colon_mem {s : List UInt8} {a : Ip6} (h : Denotes s a) : colon ∈ s := by
  cases h with
  | full h => exact h.colon_mem (by simp)
  | gap => exact List.mem_append_right _ List.mem_cons_self

/-- Bytes as characters. -/
def chars (s : List UInt8) : List Char := s.map fun b => Char.ofNat b.toNat

/-- Text of an address is ASCII. -/
theorem encodeStrict_chars {s : List UInt8} (h : ∀ c ∈ s, c ∈ alphabet) :
    encodeStrict ((chars s).map ofChar) = some s := by
  have hbyte : ∀ c ∈ alphabet, String.utf8EncodeChar (Char.ofNat c.toNat) = [c] := by
    decide +kernel
  induction s with
  | nil => rfl
  | cons c s ih =>
    have hs := ih fun c hc => h c (List.mem_cons_of_mem _ hc)
    rw [chars, List.map_map] at hs ⊢
    rw [List.map_cons, encodeStrict, hs, Function.comp_apply, char?_ofChar]
    dsimp only
    rw [hbyte c (h c List.mem_cons_self)]
    rfl

end Zuvloop.Presentation

namespace Zuvloop.Address

open ByteOrder Text Presentation

/-! ## libuv -/

/-- The text that `uv_ip_name` writes into the buffer of `toPython`. -/
def uvIpName (text : Except ℤ (List UInt8)) : List Char :=
  match text with
  | .ok s => chars s
  | .error _ => []

/-- What libuv makes of text, and of an address. -/
def uvInet (ifNameToIndex : List UInt8 → UInt32) : Inet where
  pton4 := inetPton4
  pton6 := inetPton6
  ntop4 a := uvIpName (inetNtop4 a 64)
  ntop6 a := uvIpName (inetNtop6 a 64)
  ifNameToIndex

variable {e : Endian} {ifNameToIndex : List UInt8 → UInt32}

theorem ntop4_uvInet (a : Ip4) : (uvInet ifNameToIndex).ntop4 a = chars (dotted a) := by
  change uvIpName (inetNtop4 a 64) = _
  rw [inetNtop4_eq a (by decide)]
  rfl

theorem ntop6_uvInet (ifNameToIndex : List UInt8 → UInt32) (a : Ip6) :
    ∃ s, s.length < 46 ∧ Denotes s a ∧ (uvInet ifNameToIndex).ntop6 a = chars s := by
  obtain ⟨s, hlength, hdenotes, hprint⟩ := exists_inetNtop6 a
  refine ⟨s, hlength, hdenotes, ?_⟩
  have hlt : s.length < 46 := hlength
  change uvIpName (inetNtop6 a 64) = _
  rw [hprint, if_neg (by omega)]
  rfl

theorem hostText_chars {s : List UInt8} (family : ℤ) (h : ∀ c ∈ s, c ∈ alphabet)
    (hlength : s.length < 256) : hostText family (hostString (chars s)) = .ok s := by
  have hzero : (0 : UInt8) ∉ alphabet := by decide
  exact hostText_literal family (encodeStrict_chars h) hlength fun hmem => hzero (h 0 hmem)

theorem address6_of_denotes {s : List UInt8} {a : Ip6} (h : Denotes s a) :
    (uvInet ifNameToIndex).address6 s = some a := by
  have hpercent : '%'.toUInt8 ∉ alphabet := by decide
  rw [Inet.address6, if_neg fun hmem => hpercent (h.mem_alphabet _ hmem)]
  exact inetPton6_of_denotes h

/-! ## Internet addresses -/

/-- `sa_family` -/
def Sockaddr.family : Sockaddr → ℤ
  | .inet .. => 2
  | .inet6 .. => afInet6
  | .unix _ => afUnix
  | .other family _ => family

/-- An address of `AF_INET` or `AF_INET6`. -/
def Sockaddr.IsInternet : Sockaddr → Prop
  | .inet .. | .inet6 .. => True
  | _ => False

/-- The size of the structure. -/
def Sockaddr.size : Sockaddr → ℕ
  | .inet .. => 16
  | _ => 28

/-- `sin6_flowinfo`, as the number in host byte order that `toPython` puts into the tuple, has no
more than twenty bits. (On a machine that is not big-endian this is not what the `socket` module
calls the flow label: it reads the field in network byte order.) -/
def Sockaddr.Labelled : Sockaddr → Prop
  | .inet6 _ flowinfo _ _ => flowinfo.toNat ≤ 0xfffff
  | _ => True

theorem port_range (port : UInt16) : ¬ ((port.toNat : ℤ) < 0 ∨ (65535 : ℤ) < port.toNat) := by
  have := port.toNat_lt
  omega

theorem asIsizeClamped_port (port : UInt16) : asIsizeClamped (.int port.toNat) = .ok port.toNat :=
  asIsizeClamped_nat (by have := port.toNat_lt; omega)

/-- An IPv4 address is built from its text. -/
theorem fromTuple_inet (e : Endian) (ifNameToIndex : List UInt8 → UInt32) {family : ℤ}
    (hfamily : family = 2 ∨ family = 0) (a : Ip4) (port : UInt16) :
    fromTuple e (uvInet ifNameToIndex) family [hostString (chars (dotted a)), .int port.toNat] =
      .ok (.inet (e.network16 port) a (Vector.replicate 8 0), 16) := by
  have hhost := hostText_chars family (s := dotted a) (fun c => mem_alphabet_of_mem_dotted)
    (by have := length_dotted a; omega)
  have hcolon : ¬ (family = afInet6 ∨ family = 0 ∧ ':'.toUInt8 ∈ dotted a) := by
    rintro (h | ⟨-, h⟩)
    · rw [h] at hfamily
      exact absurd hfamily (by decide)
    · exact not_colon_mem_dotted a h
  have hbuilt : uvIp4Addr e (uvInet ifNameToIndex) (dotted a) port =
      .ok (.inet (e.network16 port) a (Vector.replicate 8 0)) := by
    rw [uvIp4Addr, show (uvInet ifNameToIndex).pton4 (dotted a) = some a from
      inetPton4_dotted a]
  simp only [fromTuple, asIsizeClamped_port, hhost, ok_bind, if_neg (port_range port),
    if_neg hcolon, Int.toNat_natCast, UInt16.ofNat_toNat, hbuilt]
  rfl

/-- An IPv6 address is built from its text, if the third number of the tuple is not too large. -/
theorem fromTuple_inet6 (e : Endian) (ifNameToIndex : List UInt8 → UInt32) {family : ℤ}
    (hfamily : family = afInet6 ∨ family = 0) {s : List UInt8} {a : Ip6} (h : Denotes s a)
    (hlength : s.length < 256) (port : UInt16) (flowinfo scopeId : UInt32) :
    fromTuple e (uvInet ifNameToIndex) family
        [hostString (chars s), .int port.toNat, .int flowinfo.toNat, .int scopeId.toNat] =
      if flowinfo.toNat ≤ 0xfffff then .ok (.inet6 (e.network16 port) flowinfo a scopeId, 28)
      else .error (.overflowError "flowinfo must be 0-1048575") := by
  have hhost := hostText_chars family h.mem_alphabet hlength
  have hcolon : family = afInet6 ∨ family = 0 ∧ ':'.toUInt8 ∈ s :=
    hfamily.imp_right fun hzero => ⟨hzero, h.colon_mem⟩
  have hbuilt : uvIp6Addr e (uvInet ifNameToIndex) s port =
      .ok (.inet6 (e.network16 port) 0 a ((uvInet ifNameToIndex).zone6 s)) := by
    rw [uvIp6Addr, address6_of_denotes h]
  simp only [fromTuple, asIsizeClamped_port, hhost, ok_bind, if_neg (port_range port),
    if_pos hcolon, Int.toNat_natCast, UInt16.ofNat_toNat, hbuilt]
  split
  · rename_i hflow
    rw [hostString, setInet6Fields_tuple hflow]
    rfl
  · rename_i hflow
    have hlt := flowinfo.toNat_lt
    have hclamped : asIsizeClamped (.int flowinfo.toNat) = .ok flowinfo.toNat :=
      asIsizeClamped_nat (by omega)
    have hrange : (flowinfo.toNat : ℤ) < 0 ∨ 0xfffff < (flowinfo.toNat : ℤ) := by omega
    simp only [setInet6Fields, List.getElem?_cons_succ, List.getElem?_cons_zero, hclamped, ok_bind,
      if_pos hrange]
    rfl

/-- What an internet address becomes on its way to Python and back. -/
theorem fromPython_toPython (e : Endian) (ifNameToIndex : List UInt8 → UInt32) {sa : Sockaddr}
    (hsa : sa.IsInternet) {family : ℤ} (hfamily : family = sa.family ∨ family = 0) (len : ℕ) :
    (sa.Labelled → ∃ sa', fromPython e (uvInet ifNameToIndex) family
        (toPython e (uvInet ifNameToIndex) sa len) = .ok (sa', sa.size) ∧
        ∀ n n', same sa' n sa n' = true) ∧
      (¬ sa.Labelled → fromPython e (uvInet ifNameToIndex) family
        (toPython e (uvInet ifNameToIndex) sa len) =
          .error (.overflowError "flowinfo must be 0-1048575")) := by
  cases sa with
  | unix => exact hsa.elim
  | other => exact hsa.elim
  | inet port a zero =>
    have hfamily : family = 2 ∨ family = 0 := hfamily
    have hunix : family ≠ afUnix := by
      rintro rfl
      exact absurd hfamily (by decide)
    have hbuilt := fromTuple_inet e ifNameToIndex hfamily a (e.network16 port)
    rw [toPython, ntop4_uvInet, fromPython, if_neg hunix]
    refine ⟨fun _ => ⟨_, hbuilt, fun n n' => ?_⟩, fun h => absurd trivial h⟩
    rw [e.network16_network16]
    simp [same]
  | inet6 port flowinfo a scopeId =>
    have hfamily : family = afInet6 ∨ family = 0 := hfamily
    have hunix : family ≠ afUnix := by
      rintro rfl
      exact absurd hfamily (by decide)
    obtain ⟨s, hlength, hdenotes, hs⟩ := ntop6_uvInet ifNameToIndex a
    have hbuilt := fromTuple_inet6 e ifNameToIndex hfamily hdenotes (by omega) (e.network16 port)
      flowinfo scopeId
    rw [toPython, hs, fromPython, if_neg hunix]
    refine ⟨fun hlabel => ⟨_, hbuilt.trans (if_pos hlabel), fun n n' => ?_⟩,
      fun hlabel => hbuilt.trans (if_neg hlabel)⟩
    rw [e.network16_network16]
    simp [same]

/-- An internet address comes back, to a socket of its family or of none, if and only if its
`sin6_flowinfo`, as a number in host byte order, has no more than twenty bits. -/
theorem inet_round_trips_iff (sa : Sockaddr) (hsa : sa.IsInternet) {family : ℤ}
    (hfamily : family = sa.family ∨ family = 0) (len : ℕ) :
    (∃ sa', fromPython e (uvInet ifNameToIndex) family
        (toPython e (uvInet ifNameToIndex) sa len) = .ok (sa', sa.size) ∧
        ∀ n n', same sa' n sa n' = true) ↔ sa.Labelled := by
  obtain ⟨hok, herror⟩ := fromPython_toPython e ifNameToIndex hsa hfamily len
  refine ⟨?_, hok⟩
  rintro ⟨sa', hbuilt, -⟩
  by_contra hlabel
  rw [herror hlabel] at hbuilt
  cases hbuilt

/-- A link-local address with a scope and the largest such number comes back. -/
theorem inet_round_trips_iff_linkLocal : ∃ sa', fromPython .little (uvInet fun _ => 0) 0
    (toPython .little (uvInet fun _ => 0) (.inet6 0x5000 0xfffff
      #v[0xfe, 0x80, 0, 0, 0, 0, 0, 0, 0, 0, 0, 0, 0, 0, 0, 1] 3) 28) = .ok (sa', 28) ∧
    ∀ n n', same sa' n (.inet6 0x5000 0xfffff
      #v[0xfe, 0x80, 0, 0, 0, 0, 0, 0, 0, 0, 0, 0, 0, 0, 0, 1] 3) n' = true :=
  (inet_round_trips_iff (.inet6 0x5000 0xfffff _ 3) trivial (.inr rfl) 28).mpr
    (show (0xfffff : UInt32).toNat ≤ 0xfffff by decide)

/-! ## Naming the peer -/

/-- An address whose Python form names it: it has a name to be encoded, or is `Labelled`. -/
def Nameable : Sockaddr → ℕ → Prop
  | .unix path, len => len ≤ unBase ∨ (unixName path len).length < 108 ∧
    ((unixName path len).head? = some 0 ∨ IsUtf8 (unixName path len))
  | sa, _ => sa.Labelled

variable {inet : Inet}

/-- A connected endpoint accepts what is built into the address of its peer. -/
theorem sendtoDestination_peer {family : ℤ} {peer : Sockaddr × ℕ} {target : Value}
    (hne : target ≠ .item .none) :
    sendtoDestination e inet family true (some peer) target = .ok none ↔
      ∃ dest, fromPython e inet family target = .ok dest ∧
        same dest.1 dest.2 peer.1 peer.2 = true := by
  rw [sendtoDestination]
  · cases hdest : fromPython e inet family target with
    | error exc =>
      refine iff_of_false (fun h => ?_) ?_
      · cases h
      · rintro ⟨dest, hok, -⟩
        cases hok
    | ok dest =>
      simp only [ok_bind, if_true, Except.ok.injEq, exists_eq_left']
      cases hsame : same dest.1 dest.2 peer.1 peer.2 with
      | true => exact iff_of_true rfl rfl
      | false =>
        refine iff_of_false (fun h => ?_) Bool.false_ne_true
        cases h
  · exact hne

/-- What `toPython` makes of the peer of a connected endpoint is accepted as the destination of a
datagram if and only if it names the peer. `get_extra_info("peername")` comes from the `socket`
module and is another matter, see `inet6_agrees_iff`. -/
theorem sendto_peer_iff (sa : Sockaddr) (hsa : sa.Known) (len : ℕ) :
    sendtoDestination e (uvInet ifNameToIndex) sa.family true (some (sa, len))
        (toPython e (uvInet ifNameToIndex) sa len) = .ok none ↔ Nameable sa len := by
  have hinternet (sa : Sockaddr) (hsa : sa.IsInternet)
      (hne : toPython e (uvInet ifNameToIndex) sa len ≠ .item .none) :
      sendtoDestination e (uvInet ifNameToIndex) sa.family true (some (sa, len))
        (toPython e (uvInet ifNameToIndex) sa len) = .ok none ↔ sa.Labelled := by
    obtain ⟨hok, herror⟩ := fromPython_toPython e ifNameToIndex hsa (.inl rfl) len
    rw [sendtoDestination_peer hne]
    constructor
    · rintro ⟨dest, hdest, -⟩
      by_contra hlabel
      rw [herror hlabel] at hdest
      cases hdest
    · intro hlabel
      obtain ⟨sa', hbuilt, hsame⟩ := hok hlabel
      exact ⟨_, hbuilt, hsame _ _⟩
  cases sa with
  | other => exact hsa.elim
  | inet port a zero => exact hinternet _ trivial nofun
  | inet6 port flowinfo a scopeId => exact hinternet _ trivial nofun
  | unix path =>
    rw [Nameable, toPython_unix]
    by_cases hlen : len ≤ unBase
    · -- an unnamed peer is named by no address at all
      rw [unixName, if_pos hlen]
      exact iff_of_true rfl (.inl hlen)
    · have hhead := head?_unixName path (Nat.lt_of_not_le hlen)
      have hne : unixName path len ≠ [] := by
        intro h
        rw [h] at hhead
        cases hhead
      have hname := isName_unixName path len
      have hvalue : nameValue (unixName path len) ≠ .item .none := fun h =>
        hne (nameValue_injective h)
      rw [sendtoDestination_peer hvalue, or_iff_right hlen]
      simp only [Sockaddr.family, fromPython_nameValue hne, hhead, Option.some.injEq]
      constructor
      · rintro ⟨dest, hok, -⟩
        split at hok
        · rename_i hcodec
          refine ⟨Nat.lt_of_not_le fun hle => ?_, hcodec⟩
          rw [fromPath_of_le hle] at hok
          cases hok
        · cases hok
      · rintro ⟨hshort, hcodec⟩
        rw [if_pos hcodec]
        exact ⟨_, fromPath_name hname hshort, beq_iff_eq.mpr (unixName_storePath hname hshort)⟩

/-- The loopback address is accepted as the peer it is. -/
theorem sendto_peer_iff_loopback : sendtoDestination .little (uvInet fun _ => 0) 2 true
    (some (.inet 0x5000 loopback4 (Vector.replicate 8 0), 16))
    (toPython .little (uvInet fun _ => 0) (.inet 0x5000 loopback4 (Vector.replicate 8 0)) 16) =
      .ok none :=
  (sendto_peer_iff (.inet 0x5000 loopback4 (Vector.replicate 8 0)) trivial 16).mpr trivial

end Zuvloop.Address
