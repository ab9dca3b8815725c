import Mathlib.Algebra.Group.Nat.Defs
import PeerLink.Launcher.Loader
import PeerLink.Text.Words

/-!
# Decimal formats

Texts that are as the launcher expects them: numbers are decimal, an IPv4 address is four of them
with dots between them, and a CIDR an address, a slash and a number. Only IPv4 addresses have a
port.
-/

namespace PeerLink.Launcher.Decimal

def digits (n : Nat) : List Char := (toString n).toList

variable {n : Nat} {c : Char} {text : List Char} {addr : SocketAddr}

theorem isDigit_of_mem_digits (mem : c ∈ digits n) : c.isDigit = true := by
  rw [digits, Nat.toString_eq_repr, Nat.toList_repr] at mem
  exact Nat.isDigit_of_mem_toDigits (b := 10) (by decide) (by decide) mem

theorem notMem_digits (other : c.isDigit = false) (n : Nat) : c ∉ digits n := by
  intro mem
  rw [isDigit_of_mem_digits mem] at other
  cases other

def number (bound : Nat) (text : List Char) : Option Nat :=
  let n := Nat.ofDigitChars 10 text 0
  if text.all Char.isDigit ∧ n < bound then some n else none

theorem number_digits {bound : Nat} (below : n < bound) : number bound (digits n) = some n := by
  have value : Nat.ofDigitChars 10 (digits n) 0 = n := by
    simp [digits, Nat.toString_eq_repr, Nat.toList_repr]
  have all : (digits n).all Char.isDigit = true :=
    List.all_eq_true.mpr fun c => isDigit_of_mem_digits
  simp only [number, value]
  exact if_pos ⟨all, below⟩

def octet (text : List Char) : Option UInt8 := (number 256 text).map UInt8.ofNat

theorem octet_digits (a : UInt8) : octet (digits a.toNat) = some a := by
  rw [octet, number_digits a.toNat_lt, Option.map_some, UInt8.ofNat_toNat]

/-! ## Addresses -/

def ipv4Text (ip : Ipv4Addr) : List Char :=
  ['.'].intercalate [digits ip.a.toNat, digits ip.b.toNat, digits ip.c.toNat, digits ip.d.toNat]

def readIpv4 (text : List Char) : Option Ipv4Addr :=
  match text.splitOn '.' with
  | [a, b, c, d] => do return ⟨← octet a, ← octet b, ← octet c, ← octet d⟩
  | _ => none

theorem readIpv4_ipv4Text (ip : Ipv4Addr) : readIpv4 (ipv4Text ip) = some ip := by
  have dotless : ∀ part ∈ [digits ip.a.toNat, digits ip.b.toNat, digits ip.c.toNat,
      digits ip.d.toNat], '.' ∉ part := by
    have none := notMem_digits (c := '.') (by decide)
    simp [none]
  rw [readIpv4, ipv4Text, List.splitOn_intercalate '.' dotless (List.cons_ne_nil _ _)]
  simp only [octet_digits]
  rfl

theorem notMem_ipv4Text (other : c.isDigit = false) (notDot : c ≠ '.')
    (ip : Ipv4Addr) : c ∉ ipv4Text ip := by
  have none := notMem_digits other
  simp [ipv4Text, List.intercalate_cons_cons, none, notDot]

def ipText : IpAddr → List Char
  | .v4 ip => ipv4Text ip
  | .v6 ip => ':' :: ':' :: digits ip.bits.toNat

def readIp (text : List Char) : Option IpAddr :=
  if ':' ∈ text then (number (2 ^ 128) (text.drop 2)).map fun n => .v6 ⟨BitVec.ofNat 128 n⟩
  else (readIpv4 text).map .v4

theorem readIp_ipText (ip : IpAddr) : readIp (ipText ip) = some ip := by
  cases ip with
  | v4 ip =>
    rw [readIp, ipText, if_neg (notMem_ipv4Text (by decide) (by decide) ip), readIpv4_ipv4Text]
    rfl
  | v6 ip =>
    have below : ip.bits.toNat < 2 ^ 128 := ip.bits.isLt
    rw [readIp, ipText, if_pos List.mem_cons_self, List.drop_succ_cons, List.drop_succ_cons,
      List.drop_zero, number_digits below, Option.map_some, BitVec.ofNat_toNat, BitVec.setWidth_eq]

theorem notMem_ipText (other : c.isDigit = false) (notDot : c ≠ '.') (notColon : c ≠ ':')
    (ip : IpAddr) : c ∉ ipText ip := by
  cases ip with
  | v4 ip => exact notMem_ipv4Text other notDot ip
  | v6 ip =>
    have none := notMem_digits other
    simp [ipText, none, notColon]

/-! ## CIDRs -/

def cidrText (address : List Char) (length : UInt8) : List Char :=
  ['/'].intercalate [address, digits length.toNat]

def readCidr (text : List Char) : Option (IpAddr × UInt8) :=
  match text.splitOn '/' with
  | [address, length] => do return (← readIp address, ← octet length)
  | _ => none

theorem readCidr_cidrText (ip : IpAddr) (length : UInt8) :
    readCidr (cidrText (ipText ip) length) = some (ip, length) := by
  have slashless : ∀ part ∈ [ipText ip, digits length.toNat], '/' ∉ part := by
    have none := notMem_digits (c := '/') (by decide)
    have none' := notMem_ipText (c := '/') (by decide) (by decide) (by decide) ip
    simp [none, none']
  rw [readCidr, cidrText, List.splitOn_intercalate '/' slashless (List.cons_ne_nil _ _)]
  simp only [readIp_ipText, octet_digits]
  rfl

/-! ## The library -/

def format {α : Type} (text : α → List Char) (read : List Char → Option α)
    (inverse : ∀ value, read (text value) = some value) : Format α where
  print value := String.ofList (text value)
  parse text := read text.toList
  parse_print value := by rw [String.toList_ofList, inverse]

def readSocketAddr (text : List Char) : Option SocketAddr :=
  match text.splitOn ':' with
  | [ip, port] => do return .v4 (← readIpv4 ip) (UInt16.ofNat (← number 65536 port))
  | _ => none

theorem readSocketAddr_ipv4 (ip : Ipv4Addr) (port : UInt16) :
    readSocketAddr (ipv4Text ip ++ ':' :: digits port.toNat) = some (.v4 ip port) := by
  have colonless : ∀ part ∈ [ipv4Text ip, digits port.toNat], ':' ∉ part := by
    have none := notMem_digits (c := ':') (by decide)
    have none' := notMem_ipv4Text (c := ':') (by decide) (by decide) ip
    simp [none, none']
  have text : ipv4Text ip ++ ':' :: digits port.toNat =
      [':'].intercalate [ipv4Text ip, digits port.toNat] := by
    simp [List.intercalate_cons_cons]
  rw [text, readSocketAddr, List.splitOn_intercalate ':' colonless (List.cons_ne_nil _ _)]
  simp [readIpv4_ipv4Text, number_digits port.toNat_lt]

theorem colons_of_readSocketAddr
    (parsed : readSocketAddr text = some addr) : text.count ':' = 1 := by
  unfold readSocketAddr at parsed
  split at parsed
  · rename_i ip port split
    have colonless (part : List Char) (mem : part ∈ [ip, port]) : part.count ':' = 0 := by
      rw [← split] at mem
      refine List.count_eq_zero.mpr fun colon => ?_
      have none := Text.of_mem_splitOnP mem ':' colon
      cases none
    have joined : [':'].intercalate (text.splitOn ':') = text := List.intercalate_splitOn ':'
    rw [split, List.intercalate_cons_cons, List.intercalate_singleton] at joined
    rw [← joined, List.count_append, List.count_append, colonless ip (by simp),
      colonless port (by simp)]
    rfl
  · cases parsed

theorem isIpv4_of_readSocketAddr
    (parsed : readSocketAddr text = some addr) : addr.isIpv4 = true := by
  unfold readSocketAddr at parsed
  split at parsed
  · rename_i ip port split
    simp only [Option.bind_eq_bind, Option.bind_eq_some_iff, Option.pure_def] at parsed
    obtain ⟨ip, -, port, -, made⟩ := parsed
    cases made
    rfl
  · cases parsed

def readIpv4Cidr (text : List Char) : Option (Ipv4Addr × UInt8) :=
  match readCidr text with
  | some (.v4 ip, length) => some (ip, length)
  | _ => none

theorem readIpv4Cidr_cidrText (ip : Ipv4Addr) (length : UInt8) :
    readIpv4Cidr (cidrText (ipText (.v4 ip)) length) = some (ip, length) := by
  rw [readIpv4Cidr, readCidr_cidrText]

def uuid : Format (BitVec 128) :=
  format (fun id => digits id.toNat) (fun text => (number (2 ^ 128) text).map (.ofNat 128))
    fun id => by
      rw [number_digits id.isLt, Option.map_some, BitVec.ofNat_toNat, BitVec.setWidth_eq]

def url : Format { text : String // text ≠ "" } where
  print := Subtype.val
  parse text := if nonempty : text ≠ "" then some ⟨text, nonempty⟩ else none
  parse_print url := dif_pos url.2

def ip : Format IpAddr := format ipText readIp readIp_ipText

def ipv4Cidr : Format Ipv4Cidr :=
  format (fun cidr => cidrText (ipText (.v4 cidr.firstAddress)) cidr.networkLength)
    (fun text => (readIpv4Cidr text).map fun (ip, length) => ⟨ip, length⟩)
    fun cidr => by rw [readIpv4Cidr_cidrText, Option.map_some]

def ipv4Inet : Format Ipv4Inet :=
  format (fun inet => cidrText (ipText (.v4 inet.address)) inet.networkLength)
    (fun text => (readIpv4Cidr text).map fun (ip, length) => ⟨ip, length⟩)
    fun inet => by rw [readIpv4Cidr_cidrText, Option.map_some]

def ipCidrText : IpCidr → List Char
  | .v4 cidr => cidrText (ipText (.v4 cidr.firstAddress)) cidr.networkLength
  | .v6 cidr => cidrText (ipText (.v6 cidr.firstAddress)) cidr.networkLength

def readIpCidr (text : List Char) : Option IpCidr :=
  (readCidr text).map fun
    | (.v4 ip, length) => .v4 ⟨ip, length⟩
    | (.v6 ip, length) => .v6 ⟨ip, length⟩

def ipCidr : Format IpCidr :=
  format ipCidrText readIpCidr fun cidr => by
    cases cidr <;> rw [ipCidrText, readIpCidr, readCidr_cidrText, Option.map_some]

theorem ip_empty : ip.parse "" = none := by decide +kernel

theorem notMem_ipv4Cidr (cidr : Ipv4Cidr) : '-' ∉ (ipv4Cidr.print cidr).toList := by
  have none := notMem_digits (c := '-') (by decide)
  have none' := notMem_ipv4Text (c := '-') (by decide) (by decide)
  simp [ipv4Cidr, format, cidrText, List.intercalate_cons_cons, ipText, none, none']

theorem readSocketAddr_print (addr : Ipv4Addr) (port : UInt16) :
    readSocketAddr (ip.print (.v4 addr) ++ ":" ++ toString port.toNat).toList =
      some (.v4 addr port) := by
  rw [← readSocketAddr_ipv4]
  simp [ip, format, ipText, digits]

theorem colons_ipv6 (addr : Ipv6Addr) : 2 ≤ (ip.print (.v6 addr)).toList.count ':' := by
  simp [ip, format, ipText]

theorem head_ipv6 (addr : Ipv6Addr) : (ip.print (.v6 addr)).toList.head? ≠ some '[' := by
  simp [ip, format, ipText]

/-- URLs are texts, and all have the same port. -/
def library : Library { text : String // text ≠ "" } (BitVec 128) where
  uuid := uuid
  url := url
  port _ := some 11010
  ip := ip
  ipv4Cidr := ipv4Cidr
  ipv4Inet := ipv4Inet
  ipCidr := ipCidr
  parseSocketAddr text := readSocketAddr text.toList
  escape := id
  gethostname := "host"
  url_empty := rfl
  ip_empty := ip_empty
  cidr_dashless := notMem_ipv4Cidr
  parse_ipv4_port := readSocketAddr_print
  colons_ipv4_port _ _ _ parsed := colons_of_readSocketAddr parsed
  bracket_ipv6_port _ _ _ _ _ parsed := Bool.noConfusion (isIpv4_of_readSocketAddr parsed)
  colons_ipv6 := colons_ipv6
  bracket_ipv6 := head_ipv6

end PeerLink.Launcher.Decimal
