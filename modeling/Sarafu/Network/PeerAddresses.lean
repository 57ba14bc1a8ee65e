import Sarafu.Library.Decoding
import Sarafu.Library.TextSearch
import Sarafu.Network.Connections

namespace Sarafu
namespace Network

open Library.Decoding Library.TextSearch

/-!
# The addresses of peers

Peers are named by a text in one of two formats, `/ip4/<ip>/tcp/<port>` and `<ip>:<port>`.  The
parts are found by searching for the separators, and the port is read by `std::stoi`, which
skips leading blanks, takes a sign and stops behind the last digit.  What does not start with a
number throws.
-/

/-- `std::isspace` in the default locale. -/
def isSpace (byte : UInt8) : Bool := byte == 32 || (decide (9 ≤ byte) && decide (byte ≤ 13))

/-- An optional sign, and what is behind it. -/
def splitSign : List UInt8 -> Int × List UInt8
  | 45 :: rest => (-1, rest)
  | 43 :: rest => (1, rest)
  | text => (1, text)

/-- `std::stoi`; both of its exceptions have the same message. -/
def stoi (text : List UInt8) : Outcome String Int :=
  let signed := splitSign (text.dropWhile isSpace)
  let digits := signed.2.takeWhile isDigit
  if digits = [] then .throws "stoi"
  else
    let number := signed.1 * numberOf (digits.map fun byte => byte.toNat - 48)
    if number < -2 ^ 31 ∨ 2 ^ 31 ≤ number then .throws "stoi" else .value number

/-- `static_cast<uint16_t>` of an `int`. -/
def toPort (number : Int) : UInt16 := UInt16.ofNat (number % 2 ^ 16).toNat

/-- The address and the port, nothing for a text in neither format. -/
def parsePeerAddress (peerAddr : List UInt8) : Outcome String (Option (List UInt8 × UInt16)) :=
  match find (bytesOf "/ip4/") peerAddr, find (bytesOf "/tcp/") peerAddr with
  | some ipPos, some tcpPos =>
      let behind := peerAddr.drop (ipPos + 5)
      let ipAddr := match find (bytesOf "/") behind with
        | some length => behind.take length
        | none => behind
      (stoi (peerAddr.drop (tcpPos + 5))).map fun port => some (ipAddr, toPort port)
  | _, _ =>
      match find (bytesOf ":") peerAddr with
      | some colonPos =>
          (stoi (peerAddr.drop (colonPos + 1))).map fun port => some (peerAddr.take colonPos, toPort port)
      | none => .value none

/-- The identifier that the host makes for a connection. -/
def peerIdOf (address : List UInt8) (port : UInt16) : PeerID :=
  bytesOf "peer-" ++ address ++ bytesOf ":" ++ decimal port.toNat

/-! ## Numbers -/

/-- A text that does not begin with a digit. -/
def StopsNumber (rest : List UInt8) : Prop := forall byte, rest.head? = some byte -> isDigit byte = false

theorem not_isSpace {byte : UInt8} (digit : isDigit byte = true) : isSpace byte = false := by
  have range := digit_range digit
  rw [isSpace, Bool.or_eq_false_iff, beq_eq_false_iff_ne]
  constructor
  · rintro rfl
    exact absurd range.1 (by decide)
  · have above : ¬ byte ≤ 13 := by
      rw [UInt8.le_iff_toNat_le]
      exact Nat.not_le.mpr (Nat.lt_of_lt_of_le (by decide) range.1)
    rw [decide_eq_false above, Bool.and_false]

theorem splitSign_digit {byte : UInt8} (digit : isDigit byte = true) (rest : List UInt8) :
    splitSign (byte :: rest) = (1, byte :: rest) := by
  have range := digit_range digit
  unfold splitSign
  split
  · rename_i same
    rw [(List.cons.inj same).1] at range
    exact absurd range.1 (by decide)
  · rename_i same
    rw [(List.cons.inj same).1] at range
    exact absurd range.1 (by decide)
  · rfl

theorem takeWhile_decimal (number : Nat) {rest : List UInt8} (stops : StopsNumber rest) :
    (decimal number ++ rest).takeWhile isDigit = decimal number := by
  rw [List.takeWhile_append_of_pos fun byte member => isDigit_decimal member]
  cases rest with
  | nil => rw [List.takeWhile_nil, List.append_nil]
  | cons byte rest =>
      rw [List.takeWhile_cons_of_neg (ne_true_of_eq_false (stops byte rfl)), List.append_nil]

/-- `std::stoi` reads a number back, whatever is behind it. -/
theorem stoi_decimal {number : Nat} (small : number < 2 ^ 31) {rest : List UInt8} (stops : StopsNumber rest) :
    stoi (decimal number ++ rest) = .value number := by
  have taken := takeWhile_decimal number stops
  have digits := digits_decimal number
  have someDigit : decimal number ≠ [] := by
    rw [decimal, Ne, List.map_eq_nil_iff]
    exact decimalDigits_ne_nil number
  have value : numberOf ((decimal number).map fun byte => byte.toNat - 48) = number := by
    rw [digits, numberOf_decimalDigits]
  rcases List.exists_cons_of_ne_nil someDigit with ⟨byte, others, text⟩
  have digit : isDigit byte = true := isDigit_decimal (text ▸ List.mem_cons_self)
  have blanks : (decimal number ++ rest).dropWhile isSpace = decimal number ++ rest := by
    rw [text, List.cons_append, List.dropWhile_cons_of_neg (ne_true_of_eq_false (not_isSpace digit))]
  have sign : splitSign (decimal number ++ rest) = (1, decimal number ++ rest) := by
    rw [text, List.cons_append, splitSign_digit digit]
  unfold stoi
  simp only [blanks, sign, taken, value, one_mul]
  rw [if_neg someDigit, if_neg (by omega)]

theorem toPort_toNat (port : UInt16) : toPort port.toNat = port := by
  have small : port.toNat < 2 ^ 16 := port.toNat_lt
  apply UInt16.toNat_inj.mp
  rw [toPort, Int.emod_eq_of_lt (Int.natCast_nonneg _) (by exact_mod_cast small), Int.toNat_natCast,
    UInt16.toNat_ofNat_of_lt' small]

/-! ## Addresses -/

/-- The separator does not begin inside the address, unless that is its own name. -/
theorem not_prefix_tcp {ip tail : List UInt8} (noSlash : 47 ∉ ip) (other : ip ≠ bytesOf "tcp") :
    ¬ [116, 99, 112, 47] <+: ip ++ 47 :: tail := by
  rintro ⟨more, same⟩
  match ip, noSlash, other, same with
  | [], _, _, same => cases same
  | [_], _, _, same => cases same
  | [_, _], _, _, same => cases same
  | [_, _, _], _, other, same =>
      cases same
      exact other rfl
  | _ :: _ :: _ :: _ :: _, noSlash, _, same =>
      cases same
      exact noSlash (by simp)

theorem find_tcp {ip tail : List UInt8} (noSlash : 47 ∉ ip) (other : ip ≠ bytesOf "tcp") :
    find (bytesOf "/tcp/") (bytesOf "/ip4/" ++ (ip ++ (bytesOf "/tcp/" ++ tail))) = some (ip.length + 5) := by
  have word : bytesOf "/tcp/" = 47 :: [116, 99, 112, 47] := rfl
  have start : bytesOf "/ip4/" ++ (ip ++ ((47 :: [116, 99, 112, 47]) ++ tail)) =
      47 :: ([105, 112, 52] ++ (47 :: (ip ++ ((47 :: [116, 99, 112, 47]) ++ tail)))) := rfl
  have first : ¬ 47 :: [116, 99, 112, 47] <+:
      47 :: ([105, 112, 52] ++ (47 :: (ip ++ ((47 :: [116, 99, 112, 47]) ++ tail)))) := by
    intro isPrefix
    exact absurd (List.cons_prefix_cons.mp (List.cons_prefix_cons.mp isPrefix).2).1 (by decide)
  have second : ¬ 47 :: [116, 99, 112, 47] <+: 47 :: (ip ++ ((47 :: [116, 99, 112, 47]) ++ tail)) := by
    intro isPrefix
    exact not_prefix_tcp noSlash other (List.cons_prefix_cons.mp isPrefix).2
  rw [word, start, find_cons_of_not_prefix first, find_skip (by decide), find_cons_of_not_prefix second,
    find_skip noSlash, find_append_self]
  exact congrArg some (by simp)

/-- A multiaddress is read as its parts; what is behind the port does not matter. -/
theorem parsePeerAddress_multiaddr {ip : List UInt8} (noSlash : 47 ∉ ip) (other : ip ≠ bytesOf "tcp") (port : UInt16)
    {rest : List UInt8} (stops : StopsNumber rest) :
    parsePeerAddress (bytesOf "/ip4/" ++ (ip ++ (bytesOf "/tcp/" ++ (decimal port.toNat ++ rest)))) =
      .value (some (ip, port)) := by
  have small : port.toNat < 2 ^ 31 := Nat.lt_trans port.toNat_lt (by decide)
  have ipStart : find (bytesOf "/ip4/") (bytesOf "/ip4/" ++ (ip ++ (bytesOf "/tcp/" ++ (decimal port.toNat ++ rest)))) =
      some 0 := find_append_self _ _
  have behind : (bytesOf "/ip4/" ++ (ip ++ (bytesOf "/tcp/" ++ (decimal port.toNat ++ rest)))).drop (0 + 5) =
      ip ++ (bytesOf "/tcp/" ++ (decimal port.toNat ++ rest)) := rfl
  have ipEnd : find (bytesOf "/") (ip ++ (bytesOf "/tcp/" ++ (decimal port.toNat ++ rest))) = some ip.length := by
    have word : bytesOf "/" = [47] := rfl
    have next : bytesOf "/tcp/" ++ (decimal port.toNat ++ rest) =
        [47] ++ ([116, 99, 112, 47] ++ (decimal port.toNat ++ rest)) := rfl
    rw [word, find_skip noSlash, next, find_append_self]
    exact congrArg some (Nat.zero_add _)
  have portText : (bytesOf "/ip4/" ++ (ip ++ (bytesOf "/tcp/" ++ (decimal port.toNat ++ rest)))).drop
      (ip.length + 5 + 5) = decimal port.toNat ++ rest := by
    rw [← List.append_assoc, ← List.append_assoc]
    apply List.drop_left'
    simp only [List.length_append, show (bytesOf "/ip4/").length = 5 from rfl,
      show (bytesOf "/tcp/").length = 5 from rfl]
    omega
  unfold parsePeerAddress
  simp only [ipStart, find_tcp noSlash other, behind, ipEnd, portText, List.take_left, stoi_decimal small stops]
  exact congrArg (fun number => Outcome.value (some (ip, number))) (toPort_toNat port)

/-- The simple format is read as its parts too. -/
theorem parsePeerAddress_simple {ip : List UInt8} (noSlash : 47 ∉ ip) (noColon : 58 ∉ ip) (port : UInt16)
    {rest : List UInt8} (stops : StopsNumber rest) (plain : 47 ∉ rest) :
    parsePeerAddress (ip ++ (bytesOf ":" ++ (decimal port.toNat ++ rest))) = .value (some (ip, port)) := by
  have small : port.toNat < 2 ^ 31 := Nat.lt_trans port.toNat_lt (by decide)
  have absent : 47 ∉ ip ++ (bytesOf ":" ++ (decimal port.toNat ++ rest)) := by
    rw [List.mem_append, List.mem_append, List.mem_append, not_or, not_or, not_or]
    exact ⟨noSlash, by decide, notMem_decimal (by decide) _, plain⟩
  have noIp : find (bytesOf "/ip4/") (ip ++ (bytesOf ":" ++ (decimal port.toNat ++ rest))) = none :=
    find_eq_none_of_notMem absent
  have colonPos : find (bytesOf ":") (ip ++ (bytesOf ":" ++ (decimal port.toNat ++ rest))) = some ip.length := by
    have word : bytesOf ":" = [58] := rfl
    rw [word, find_skip noColon, find_append_self]
    exact congrArg some (Nat.zero_add _)
  have portText : (ip ++ (bytesOf ":" ++ (decimal port.toNat ++ rest))).drop (ip.length + 1) =
      decimal port.toNat ++ rest := by
    rw [← List.append_assoc]
    apply List.drop_left'
    rw [List.length_append]
    rfl
  unfold parsePeerAddress
  simp only [noIp, colonPos, portText, List.take_left, stoi_decimal small stops]
  exact congrArg (fun number => Outcome.value (some (ip, number))) (toPort_toNat port)

/-- The parts of an address, none of which holds a separator. -/
structure PlainHost (ip : List UInt8) : Prop where
  noSlash : 47 ∉ ip
  noColon : 58 ∉ ip
  other : ip ≠ bytesOf "tcp"

theorem peerIdOf_inj {ip otherIp : List UInt8} (plain : PlainHost ip) (otherPlain : PlainHost otherIp)
    {port otherPort : UInt16} (same : peerIdOf ip port = peerIdOf otherIp otherPort) :
    ip = otherIp ∧ port = otherPort := by
  unfold peerIdOf at same
  simp only [List.append_assoc] at same
  have rest := List.append_cancel_left same
  have read : forall (host : List UInt8) (number : UInt16), PlainHost host ->
      parsePeerAddress (host ++ (bytesOf ":" ++ decimal number.toNat)) = .value (some (host, number)) := by
    intro host number hostPlain
    have parsed := parsePeerAddress_simple hostPlain.noSlash hostPlain.noColon number
      (show StopsNumber [] from nofun) List.not_mem_nil
    rw [List.append_nil] at parsed
    exact parsed
  have parts :=
    (read ip port plain).symm.trans ((congrArg parsePeerAddress rest).trans (read otherIp otherPort otherPlain))
  exact Prod.mk.inj (Option.some.inj (Outcome.value.inj parts))

/-- Both formats of an address are read as its host and its port, also with more behind a multiaddress, and
the identifier made from them is that of no other host or port. -/
theorem peerAddress_formats {ip : List UInt8} (plain : PlainHost ip) (port : UInt16) :
    (forall rest, StopsNumber rest ->
      parsePeerAddress (bytesOf "/ip4/" ++ (ip ++ (bytesOf "/tcp/" ++ (decimal port.toNat ++ rest)))) =
        .value (some (ip, port))) ∧
    (forall rest, StopsNumber rest -> 47 ∉ rest ->
      parsePeerAddress (ip ++ (bytesOf ":" ++ (decimal port.toNat ++ rest))) = .value (some (ip, port))) ∧
    forall otherIp otherPort, PlainHost otherIp -> peerIdOf otherIp otherPort = peerIdOf ip port ->
      otherIp = ip ∧ otherPort = port :=
  ⟨fun _ stops => parsePeerAddress_multiaddr plain.noSlash plain.other port stops,
    fun _ stops noSlash => parsePeerAddress_simple plain.noSlash plain.noColon port stops noSlash,
    fun _ _ otherPlain same => peerIdOf_inj otherPlain plain same⟩

/-- The address of a peer with a port of five digits and a further protocol behind it. -/
theorem peerAddress_formats_sample :
    parsePeerAddress (bytesOf "/ip4/" ++ (bytesOf "10.0.0.7" ++ (bytesOf "/tcp/" ++ (decimal 30303 ++
      bytesOf "/p2p/x")))) = .value (some (bytesOf "10.0.0.7", 30303)) := by
  have plain : PlainHost (bytesOf "10.0.0.7") := ⟨by decide, by decide, by decide⟩
  have stops : StopsNumber (bytesOf "/p2p/x") := by
    intro byte first
    rw [← Option.some.inj first]
    decide
  exact (peerAddress_formats plain 30303).1 _ stops

/-- A host that is the name of the protocol hides the port. -/
example : parsePeerAddress (bytesOf "/ip4/tcp/tcp/9000") = .throws "stoi" := by decide +kernel

end Network
end Sarafu
