import Mathlib.Data.List.TakeWhile
import PeerLink.Acl.Priority

/-!
# Port whitelists

`AclRuleBuilder` turns lists of ports into an inbound chain that lets them through and drops
the rest. Two readers go over each text: `parse_port_list` when the chain is generated, which
is strict, and `parse_port_range` when it is compiled, which is not.
-/

namespace PeerLink.Acl

open Packet

def Protocol.code : Protocol → Int
  | unspecified => 0
  | tcp => 1
  | udp => 2
  | icmp => 3
  | icmpv6 => 4
  | any => 5

def Action.code : Action → Int
  | noop => 0
  | allow => 1
  | drop => 2

variable {n : Nat} {text : List Char} {port : UInt16} {c : Char}

@[simp] theorem Protocol.ofCode_code (protocol : Protocol) : ofCode protocol.code = protocol := by
  cases protocol <;> rfl

@[simp] theorem Action.ofCode_code (action : Action) : ofCode action.code = action := by
  cases action <;> rfl

/-! ## The generated chain -/

/-- One entry of `parse_port_list`; an error carries the text of its context. -/
def parsePortSpec (spec : String) : Except String String :=
  if spec.toList.contains '-' then
    match spec.toList.splitOn '-' with
    | [first, last] =>
      match parseU16 first with
      | none => .error ("Invalid start port in range: " ++ spec)
      | some start =>
        match parseU16 last with
        | none => .error ("Invalid end port in range: " ++ spec)
        | some stop =>
          if stop < start then .error ("Start port must be <= end port in range: " ++ spec)
          else .ok spec
    | _ => .error ("Invalid port range format: " ++ spec)
  else
    match parseU16 spec.toList with
    | none => .error ("Invalid port number: " ++ spec)
    | some port => .ok (toString port)

def parsePortList (specs : List String) : Except String (List String) :=
  specs.mapM parsePortSpec

structure AclRuleBuilder where
  acl : Option AclConfig
  tcpWhitelist : List String
  udpWhitelist : List String
  whitelistPriority : Option Nat
  deriving DecidableEq

/-- A whitelist rule: any source, no limit. -/
def whitelistRule (protocol : Protocol) (stateful : Bool) (priority : Nat) (ports : List String) :
    Rule where
  priority := priority
  enabled := true
  protocol := protocol.code
  ports := ports
  sourceIps := []
  destinationIps := []
  sourcePorts := []
  action := Action.allow.code
  rateLimit := 0
  burstLimit := 0
  stateful := stateful
  sourceGroups := []
  destinationGroups := []

def tcpWhitelistRule : Nat → List String → Rule := whitelistRule .tcp true

def udpWhitelistRule : Nat → List String → Rule := whitelistRule .udp false

/-- No rule for an empty list, one rule for any other. -/
def whitelistRules (specs : List String) (rule : List String → Rule) :
    Except String (List Rule) :=
  if specs.isEmpty then .ok [] else (parsePortList specs).map fun ports => [rule ports]

namespace AclRuleBuilder

variable (b : AclRuleBuilder)

/-- The inbound chain; the priority is a `u32` that goes down by one after the TCP rule. -/
def whitelistChain : Except String Chain := do
  let priority := b.whitelistPriority.getD 1000
  let tcpRules ← whitelistRules b.tcpWhitelist (tcpWhitelistRule priority)
  let priority := if b.tcpWhitelist.isEmpty then priority else (priority + 2 ^ 32 - 1) % 2 ^ 32
  let udpRules ← whitelistRules b.udpWhitelist (udpWhitelistRule priority)
  return { chainType := ChainType.inbound.code
           enabled := true
           rules := tcpRules ++ udpRules
           defaultAction := Action.drop.code }

/-- The chain goes behind those of the user. -/
def withChain (chain : Chain) : AclRuleBuilder :=
  let acl := b.acl.getD .default
  match acl.aclV1 with
  | some v1 => { b with acl := some ⟨some ⟨v1.chains ++ [chain]⟩⟩ }
  | none => { b with acl := some ⟨some ⟨[chain]⟩⟩ }

def generateAclFromWhitelists : Except String AclRuleBuilder :=
  if b.tcpWhitelist.isEmpty && b.udpWhitelist.isEmpty then .ok b
  else b.whitelistChain.map b.withChain

/-- The chains that the user brings along. -/
def userChains : List Chain := (b.acl.getD .default).chains

theorem withChain_acl (chain : Chain) :
    ∃ acl, (b.withChain chain).acl = some acl ∧ acl.chains = b.userChains ++ [chain] := by
  unfold withChain userChains AclConfig.chains
  dsimp only
  cases (b.acl.getD .default).aclV1 with
  | none => exact ⟨⟨some ⟨[chain]⟩⟩, rfl, rfl⟩
  | some v1 => exact ⟨⟨some ⟨v1.chains ++ [chain]⟩⟩, rfl, rfl⟩

end AclRuleBuilder

/-! ## The texts of ports -/

/-- The first and the last port that a text names: a number, or two with a dash between. -/
inductive PortSpec : List Char → UInt16 → UInt16 → Prop where
  | single {text : List Char} {port : UInt16} (read : parseU16 text = some port) :
      PortSpec text port port
  | range {first last : List Char} {start stop : UInt16} (readFirst : parseU16 first = some start)
      (readLast : parseU16 last = some stop) (ordered : start ≤ stop) :
      PortSpec (first ++ '-' :: last) start stop

theorem parseDigits_isDigit
    (read : parseDigits n text = some port) : ∀ c ∈ text, c.isDigit = true := by
  induction text generalizing n with
  | nil => exact nofun
  | cons c rest ih =>
    unfold parseDigits at read
    dsimp only at read
    split at read
    · rename_i digit
      split at read
      · exact List.forall_mem_cons.mpr ⟨digit, ih read⟩
      · cases read
    · cases read

/-- A number has digits, and perhaps a plus sign. -/
theorem parseU16_chars (read : parseU16 text = some port) :
    ∀ c ∈ text, c.isDigit = true ∨ c = '+' := by
  unfold parseU16 at read
  split at read
  · cases read
  · cases read
  · exact List.forall_mem_cons.mpr ⟨.inr rfl, fun c mem => .inl (parseDigits_isDigit read c mem)⟩
  · exact fun c mem => .inl (parseDigits_isDigit read c mem)

theorem not_dash (char : c.isDigit = true ∨ c = '+') : c ≠ '-' := by
  rintro rfl
  revert char
  decide

theorem not_isWhitespace (char : c.isDigit = true ∨ c = '+') :
    isWhitespace c = false := by
  obtain digit | rfl := char
  · have bounds : 48 ≤ c.toNat ∧ c.toNat ≤ 57 := by
      simpa [Char.isDigit, UInt32.le_iff_toNat_le] using digit
    simp only [isWhitespace, Bool.or_eq_false_iff, Bool.and_eq_false_iff, decide_eq_false_iff_not,
      beq_eq_false_iff_ne, ne_eq]
    omega
  · decide

theorem trim_eq_self (chars : ∀ c ∈ text, isWhitespace c = false) :
    trim text = text := by
  have whole : ∀ l ⊆ text, l.dropWhile isWhitespace = l := by
    intro l part
    refine List.dropWhile_eq_self_iff.mpr fun some => ?_
    simp [chars _ (part (List.getElem_mem some))]
  unfold trim
  rw [whole text (List.Subset.refl _), whole _ fun c mem => List.mem_reverse.mp mem,
    List.reverse_reverse]

theorem trim_of_parseU16 (read : parseU16 text = some port) :
    trim text = text :=
  trim_eq_self fun c mem => not_isWhitespace (parseU16_chars read c mem)

theorem splitOnce_append {first : List Char} (absent : c ∉ first) (last : List Char) :
    splitOnce c (first ++ c :: last) = some (first, last) := by
  induction first with
  | nil => simp [splitOnce]
  | cons d rest ih =>
    have differs : d ≠ c := (List.ne_of_not_mem_cons absent).symm
    simp [splitOnce, differs, ih (List.not_mem_of_not_mem_cons absent)]

theorem splitOnce_absent (absent : c ∉ text) :
    splitOnce c text = none := by
  induction text with
  | nil => rfl
  | cons d rest ih =>
    have differs : d ≠ c := (List.ne_of_not_mem_cons absent).symm
    simp [splitOnce, differs, ih (List.not_mem_of_not_mem_cons absent)]

theorem dash_absent (read : parseU16 text = some port) :
    '-' ∉ text :=
  fun mem => not_dash (parseU16_chars read '-' mem) rfl

/-- `parse_port_range` reads the ports that the text names. -/
theorem PortSpec.parsePortRange {text : String} {start stop : UInt16}
    (spec : PortSpec text.toList start stop) : Acl.parsePortRange text = some (start, stop) := by
  unfold Acl.parsePortRange
  generalize text.toList = chars at spec
  cases spec with
  | single read =>
    rw [splitOnce_absent (dash_absent read)]
    simp [trim_of_parseU16 read, read]
  | range readFirst readLast ordered =>
    rw [splitOnce_append (dash_absent readFirst)]
    simp [trim_of_parseU16 readFirst, trim_of_parseU16 readLast, readFirst, readLast]

/-- Reading goes on behind what was read. -/
theorem parseDigits_append (small : n < 2 ^ 16) (rest : List Char) :
    parseDigits n (text ++ rest) =
      (parseDigits n text).bind fun port => parseDigits port.toNat rest := by
  induction text generalizing n with
  | nil => rw [parseDigits, Option.bind_some, UInt16.toNat_ofNat_of_lt' small, List.nil_append]
  | cons c text ih =>
    simp only [List.cons_append, parseDigits]
    split
    · split
      · exact ih ‹_›
      · rfl
    · rfl

theorem parseDigits_digitChar {digit : Nat} (single : digit < 10)
    (fits : n * 10 + digit < 2 ^ 16) :
    parseDigits n [digit.digitChar] = some (.ofNat (n * 10 + digit)) := by
  have value : digit.digitChar.toNat - '0'.toNat = digit := by
    rw [Nat.toNat_digitChar_of_lt_ten single]
    exact Nat.add_sub_cancel_left 48 digit
  simp only [parseDigits, Nat.isDigit_digitChar, single, decide_true, value, fits, if_true]

/-- A printed number is read as itself. -/
theorem parseDigits_toDigits (small : n < 2 ^ 16) :
    parseDigits 0 (Nat.toDigits 10 n) = some (.ofNat n) := by
  induction n using Nat.strongRecOn with
  | ind n ih =>
    by_cases single : n < 10
    · rw [Nat.toDigits_of_lt_base single, parseDigits_digitChar single (by omega)]
      simp
    · -- the last digit is split off, the rest is a smaller number
      have split : 10 * (n / 10) + n % 10 = n := Nat.div_add_mod n 10
      have last : n % 10 < 10 := Nat.mod_lt n (by omega)
      have digits : Nat.toDigits 10 n = Nat.toDigits 10 (n / 10) ++ [(n % 10).digitChar] := by
        rw [← Nat.toDigits_of_lt_base last,
          Nat.toDigits_append_toDigits (by omega) (by omega) last, split]
      have front : (UInt16.ofNat (n / 10)).toNat = n / 10 := by
        rw [UInt16.toNat_ofNat', Nat.mod_eq_of_lt (by omega)]
      rw [digits, parseDigits_append (by omega), ih (n / 10) (by omega) (by omega),
        Option.bind_some,
        front, parseDigits_digitChar last (by omega), Nat.mul_comm, split]

theorem parseU16_toString (port : UInt16) : parseU16 (toString port).toList = some port := by
  have text : (toString port).toList = Nat.toDigits 10 port.toNat := Nat.toList_repr
  have small : port.toNat < 2 ^ 16 := port.toNat_lt
  have read := parseDigits_toDigits small
  rw [text]
  rw [show UInt16.ofNat port.toNat = port from UInt16.ofNat_toNat] at read
  have noPlus : '+' ∉ Nat.toDigits 10 port.toNat := fun mem =>
    absurd (Nat.isDigit_of_mem_toDigits (by omega) (le_refl 10) mem) (by decide)
  unfold parseU16
  split
  · rename_i empty
    exact absurd empty Nat.toDigits_ne_nil
  · rename_i plus
    exact absurd (plus ▸ List.mem_singleton_self '+') noPlus
  · rename_i plus
    exact absurd (plus ▸ List.mem_cons_self) noPlus
  · exact read

/-- An accepted text names ports, and what becomes of it names the same ones. -/
theorem parsePortSpec_ok {spec text : String} (accepted : parsePortSpec spec = .ok text) :
    ∃ start stop, PortSpec spec.toList start stop ∧ PortSpec text.toList start stop := by
  unfold parsePortSpec at accepted
  split at accepted
  · split at accepted
    · rename_i first last parts
      have whole : spec.toList = first ++ '-' :: last := by
        have joined : ['-'].intercalate (spec.toList.splitOn '-') = spec.toList :=
          List.intercalate_splitOn '-'
        rw [← joined, parts]
        simp [List.intercalate]
      split at accepted
      · cases accepted
      · rename_i start readFirst
        split at accepted
        · cases accepted
        · rename_i stop readLast
          split at accepted
          · cases accepted
          · rename_i ordered
            cases accepted
            rw [whole]
            have named := PortSpec.range readFirst readLast (UInt16.not_lt.mp ordered)
            exact ⟨start, stop, named, named⟩
    · cases accepted
  · split at accepted
    · cases accepted
    · rename_i port read
      cases accepted
      exact ⟨port, port, .single read, .single (parseU16_toString port)⟩

/-- The two readers agree about a list that the first one accepts. -/
theorem parsePortList_ok {specs texts : List String} (accepted : parsePortList specs = .ok texts) :
    List.Forall₂ (fun spec text => ∃ start stop, PortSpec spec.toList start stop ∧
      parsePortRange spec = some (start, stop) ∧ parsePortRange text = some (start, stop))
        specs texts := by
  refine (forall₂_of_mapM_ok accepted).imp fun spec text read => ?_
  obtain ⟨start, stop, named, renamed⟩ := parsePortSpec_ok read
  exact ⟨start, stop, named, named.parsePortRange, renamed.parsePortRange⟩

/-! ## What the generated chain lets through -/

/-- The port is among those that the texts name. -/
def Listed (specs : List String) (port : UInt16) : Prop :=
  ∃ spec ∈ specs, ∃ start stop, PortSpec spec.toList start stop ∧ start ≤ port ∧ port ≤ stop

/-- The packet goes to a port on the list of its protocol. -/
def AclRuleBuilder.Whitelisted (b : AclRuleBuilder) (info : PacketInfo) : Prop :=
  ∃ port, info.dstPort = some port ∧
    (info.protocol = .tcp ∧ Listed b.tcpWhitelist port ∨
      info.protocol = .udp ∧ Listed b.udpWhitelist port)

section

variable {parseCidr : CidrParser} {info : PacketInfo}

variable {specs texts : List String} {protocol : Protocol} {b : AclRuleBuilder} {chain : Chain}

section
variable (accepted : parsePortList specs = .ok texts)
include accepted

/-- The compiled ranges of an accepted list hold the listed ports. -/
theorem listed_iff (port : UInt16) :
    (texts.filterMap parsePortRange).any
      (fun range => range.1 ≤ port && port ≤ range.2) = true ↔ Listed specs port := by
  have read := parsePortList_ok accepted
  clear accepted
  induction read with
  | nil => simp [Listed]
  | @cons spec text specs texts here rest ih =>
    obtain ⟨start, stop, named, reread, compiled⟩ := here
    rw [List.filterMap_cons_some compiled, List.any_cons, Bool.or_eq_true]
    refine (or_congr_right ih).trans ?_
    unfold Listed
    rw [List.exists_mem_cons_iff, Bool.and_eq_true, decide_eq_true_iff, decide_eq_true_iff]
    refine or_congr_left ?_
    constructor
    · exact fun within => ⟨start, stop, named, within⟩
    · rintro ⟨first, last, named', within⟩
      cases Option.some.inj (named'.parsePortRange.symm.trans reread)
      exact within

theorem ranges_ne_nil (inhabited : specs ≠ []) : texts.filterMap parsePortRange ≠ [] := by
  cases parsePortList_ok accepted with
  | nil => exact absurd rfl inhabited
  | cons here rest =>
    obtain ⟨start, stop, -, -, compiled⟩ := here
    rw [List.filterMap_cons_some compiled]
    exact List.cons_ne_nil _ _

/-- A whitelist rule applies to the packets of its protocol whose port it lists. -/
theorem whitelistRule_applies (inhabited : specs ≠ []) (specific : protocol ≠ .any)
    (stateful : Bool) (priority : Nat) (hasPort : info.dstPort = some port) :
    (whitelistRule protocol stateful priority texts).applies parseCidr info = true ↔
      protocol = info.protocol ∧ Listed specs port := by
  have ranges : (texts.filterMap parsePortRange).isEmpty = false := by
    simpa using ranges_ne_nil accepted inhabited
  have srcPorts : portMatches [] info.srcPort = true := by cases info.srcPort <;> rfl
  have dstPorts : portMatches (texts.filterMap parsePortRange) info.dstPort = true ↔
      Listed specs port := by
    rw [← listed_iff accepted, hasPort, portMatches, ranges, Bool.false_or]
  rw [← dstPorts]
  simp [Rule.applies, whitelistRule, convertToFastLookupRule, FastLookupRule.ruleMatches, ipMatches,
    groupMatches, srcPorts, specific]

end

/-- A rule of a whitelist, which lets through without limit. -/
def Unlimited (rule : Rule) : Prop := rule.rateLimit = 0 ∧ Action.ofCode rule.action = .allow

theorem whitelistRules_apply (stateful : Bool) (priority : Nat) {rules : List Rule}
    (made : whitelistRules specs (whitelistRule protocol stateful priority) = .ok rules)
    (specific : protocol ≠ .any) (hasPorts : protocol = info.protocol → info.dstPort.isSome) :
    (∀ rule ∈ rules, Unlimited rule) ∧
      ((∃ rule ∈ rules, rule.applies parseCidr info = true) ↔
        ∃ port, info.dstPort = some port ∧ info.protocol = protocol ∧ Listed specs port) := by
  unfold whitelistRules at made
  split at made
  · rename_i empty
    cases made
    rw [List.isEmpty_iff.mp empty]
    exact ⟨nofun, by simp [Listed]⟩
  · rename_i inhabited
    have inhabited : specs ≠ [] := fun empty => inhabited (List.isEmpty_iff.mpr empty)
    obtain ⟨texts, accepted, rfl⟩ := map_ok.mp made
    refine ⟨fun rule mem => ?_, ?_⟩
    · cases List.mem_singleton.mp mem
      exact ⟨rfl, rfl⟩
    · simp only [List.mem_singleton, exists_eq_left]
      cases hasPort : info.dstPort with
      | some port =>
        rw [whitelistRule_applies accepted inhabited specific stateful priority hasPort,
          eq_comm (a := protocol)]
        simp
      | none =>
        have other : protocol ≠ info.protocol := by
          intro same
          simp [hasPort] at hasPorts
          exact hasPorts same
        simp [Rule.applies, FastLookupRule.ruleMatches, convertToFastLookupRule, whitelistRule,
          specific, other]

/-- The generated chain, as a whole. -/
theorem whitelistChain_spec (made : b.whitelistChain = .ok chain) (ports : PortsPresent info) :
    chain.chainType = ChainType.inbound.code ∧ chain.enabled = true ∧
      chain.defaultAction = Action.drop.code ∧ (∀ rule ∈ chain.rules, Unlimited rule) ∧
      ((∃ rule ∈ chain.rules, rule.applies parseCidr info = true) ↔ b.Whitelisted info) := by
  obtain ⟨tcpRules, madeTcp, rest⟩ := bind_ok.mp made
  obtain ⟨udpRules, madeUdp, done⟩ := bind_ok.mp rest
  cases done
  obtain ⟨tcpUnlimited, tcpApply⟩ := @whitelistRules_apply parseCidr info _ _ _ _ _ madeTcp nofun
    fun isTcp => ports.2.mpr (.inl isTcp.symm)
  obtain ⟨udpUnlimited, udpApply⟩ := @whitelistRules_apply parseCidr info _ _ _ _ _ madeUdp nofun
    fun isUdp => ports.2.mpr (.inr isUdp.symm)
  refine ⟨rfl, rfl, rfl, List.forall_mem_append.mpr ⟨tcpUnlimited, udpUnlimited⟩, ?_⟩
  simp [List.mem_append, or_and_right, exists_or, tcpApply, udpApply,
    AclRuleBuilder.Whitelisted, and_or_left]

theorem generated_spec {b' : AclRuleBuilder} (inhabited : b.tcpWhitelist ≠ [] ∨ b.udpWhitelist ≠ [])
    (generated : b.generateAclFromWhitelists = .ok b') :
    ∃ chain acl, b.whitelistChain = .ok chain ∧ b'.acl = some acl ∧
      acl.chains = b.userChains ++ [chain] := by
  have generates : (b.tcpWhitelist.isEmpty && b.udpWhitelist.isEmpty) = false := by
    obtain tcp | udp := inhabited
    · simp [tcp]
    · simp [udp]
  rw [AclRuleBuilder.generateAclFromWhitelists, generates] at generated
  obtain ⟨chain, made, rfl⟩ := map_ok.mp generated
  obtain ⟨acl, isAcl, chains⟩ := b.withChain_acl chain
  exact ⟨chain, acl, made, isAcl, chains⟩

/-- The generated chain alone: what the first match is, for a packet of each chain type. -/
theorem firstMatch_whitelist {acl : AclConfig}
    (made : b.whitelistChain = .ok chain) (alone : acl.chains = [chain])
    (ports : PortsPresent info) {chainType : ChainType} :
    (∀ compiled, acl.firstMatch parseCidr info chainType = some compiled →
      compiled.rateLimit = 0 ∧ compiled.action = .allow ∧ chainType = .inbound ∧
        b.Whitelisted info) ∧
      (acl.firstMatch parseCidr info chainType = none → chainType = .inbound →
        ¬ b.Whitelisted info) := by
  obtain ⟨type, enabled, -, unlimited, applies⟩ :=
    @whitelistChain_spec parseCidr info b chain made ports
  have serves : chain.serves chainType = true ↔ chainType = .inbound := by
    cases chainType <;> simp [Chain.serves, enabled, type, ChainType.ofCode, ChainType.code]
  constructor
  · intro compiled found
    obtain ⟨chain', rule, isFirst, mem, ruleApplies, rfl, -⟩ := firstMatch_some found
    obtain ⟨chainMem, chainServes, -⟩ := firstChain_some isFirst
    rw [alone] at chainMem
    cases List.mem_singleton.mp chainMem
    obtain ⟨rate, action⟩ := unlimited rule mem
    exact ⟨rate, action, serves.mp chainServes, applies.mp ⟨rule, mem, ruleApplies⟩⟩
  · intro missed inbound listed
    obtain ⟨rule, mem, ruleApplies⟩ := applies.mpr listed
    exact firstMatch_none.mp missed rule
      ⟨chain, alone ▸ List.mem_singleton_self chain, serves.mpr inbound, mem, ruleApplies⟩

/-- **Port whitelists mean what they say.** The two readers agree on every text that is
accepted; inbound packets to a listed port of their protocol are allowed, other inbound
packets are dropped, and outbound and forwarded packets are allowed. -/
theorem whitelist_allows_listed (parseCidr : CidrParser) {b b' : AclRuleBuilder}
    (noUser : b.acl = none) (inhabited : b.tcpWhitelist ≠ [] ∨ b.udpWhitelist ≠ [])
    (generated : b.generateAclFromWhitelists = .ok b') :
    (∀ specs texts, parsePortList specs = .ok texts →
      List.Forall₂ (fun spec text => ∃ start stop, PortSpec spec.toList start stop ∧
        parsePortRange spec = some (start, stop) ∧ parsePortRange text = some (start, stop))
          specs texts) ∧
    ∃ acl, b'.acl = some acl ∧ ∀ p : AclProcessor, p.BuiltFrom parseCidr acl →
      ∀ info, PortsPresent info → ∀ env chainType, chainType ≠ .unspecifiedChain →
        ∃ result p', p.processPacket env info chainType = some (result, p') ∧
          (chainType = .inbound → (b.Whitelisted info → result.action = .allow) ∧
            (¬ b.Whitelisted info → result.action = .drop)) ∧
          (chainType ≠ .inbound → result.action = .allow) := by
  refine ⟨fun specs texts => parsePortList_ok, ?_⟩
  obtain ⟨chain, acl, made, isAcl, chains⟩ := generated_spec inhabited generated
  have alone : acl.chains = [chain] := by
    rw [chains, AclRuleBuilder.userChains, noUser]
    rfl
  refine ⟨acl, isAcl, fun p built info ports env chainType served => ?_⟩
  obtain ⟨result, p', processed, -⟩ := built.answers ports served env
  refine ⟨result, p', processed, ?_⟩
  obtain ⟨hit, miss⟩ := @firstMatch_whitelist parseCidr info b chain acl made alone ports chainType
  have action := processPacket_action built.faithful ports served
    (fun rule found => (hit rule found).1)
    processed
  cases found : acl.firstMatch parseCidr info chainType with
  | some compiled =>
    obtain ⟨-, allows, inbound, listed⟩ := hit compiled found
    rw [found, Option.map_some, Option.getD_some, allows] at action
    exact ⟨fun _ => ⟨fun _ => action, absurd listed⟩, absurd inbound⟩
  | none =>
    obtain ⟨type, -, default, -⟩ := @whitelistChain_spec parseCidr info b chain made ports
    rw [found, Option.map_none, Option.getD_none, buildDefaultAction_eq, alone] at action
    constructor
    · intro inbound
      have dropped : result.action = .drop := by
        rw [action, inbound]
        simp [Chain.defaultOf, type, default]
      exact ⟨fun listed => absurd listed (miss found inbound), fun _ => dropped⟩
    · intro other
      rw [action]
      cases chainType <;> simp_all [Chain.defaultOf, ChainType.code]

end

/-- A whitelist for TCP ports, next to the configuration of the user. -/
def tcpBuilder (acl : Option AclConfig) (ports : List String) : AclRuleBuilder :=
  ⟨acl, ports, [], none⟩

theorem range_spec : PortSpec "70-90".toList 70 90 := by
  have text : "70-90".toList = "70".toList ++ '-' :: "90".toList := by decide +kernel
  rw [text]
  exact .range (by decide +kernel) (by decide +kernel) (by decide)

theorem listed_range_allowed :
    ∃ b' acl result p', (tcpBuilder none ["22", "70-90"]).generateAclFromWhitelists = .ok b' ∧
      b'.acl = some acl ∧ (AclProcessor.freshProcessor acl).processPacket sampleEnv
        sampleHandler.packetInfo .inbound = some (result, p') ∧ result.action = .allow := by
  have generated : (tcpBuilder none ["22", "70-90"]).generateAclFromWhitelists = .ok
      (tcpBuilder (some ⟨some ⟨[⟨1, true, [tcpWhitelistRule 1000 ["22", "70-90"]], 2⟩]⟩⟩)
        ["22", "70-90"]) := by decide +kernel
  obtain ⟨-, acl, isAcl, serves⟩ :=
    whitelist_allows_listed (fun _ => none) rfl (.inl (List.cons_ne_nil _ _)) generated
  obtain ⟨result, p', processed, inbound, -⟩ := serves _ (AclProcessor.freshProcessor_built acl)
    sampleHandler.packetInfo (by decide) sampleEnv .inbound nofun
  refine ⟨_, acl, result, p', generated, isAcl, processed, (inbound rfl).1 ?_⟩
  exact ⟨80, rfl, .inl ⟨rfl, "70-90", by simp [tcpBuilder], 70, 90,
    range_spec, by decide, by decide⟩⟩

section

variable {parseCidr : CidrParser} {info : PacketInfo}

/-- **A whitelist stays default-deny** next to the chains of the user exactly when the first
inbound chain among these, if there is one, drops by default: it stands before the generated
chain, and the first chain has the default action. -/
theorem whitelist_default_deny_iff {b b' : AclRuleBuilder}
    (inhabited : b.tcpWhitelist ≠ [] ∨ b.udpWhitelist ≠ [])
    (generated : b.generateAclFromWhitelists = .ok b') {acl : AclConfig} (isAcl : b'.acl = some acl)
    {p p' : AclProcessor} (built : p.BuiltFrom parseCidr acl) (ports : PortsPresent info)
    (unmatched : ∀ rule, ¬ acl.Applies parseCidr info .inbound rule) {env : AclEnv}
    {result : AclResult} (processed : p.processPacket env info .inbound = some (result, p')) :
    result.action = .drop ↔
      ∀ chain, b.userChains.find? (·.chainType == ChainType.inbound.code) = some chain →
        Action.ofCode chain.defaultAction = .drop := by
  obtain ⟨chain, acl', made, isAcl', chains⟩ := generated_spec inhabited generated
  cases isAcl.symm.trans isAcl'
  obtain ⟨type, -, default, -⟩ := @whitelistChain_spec parseCidr info b chain made ports
  have missed := firstMatch_none.mpr unmatched
  have action := processPacket_action built.faithful ports (by decide)
    (fun rule found => by rw [missed] at found; cases found) processed
  rw [missed, Option.map_none, Option.getD_none, buildDefaultAction_eq, chains,
    List.find?_append] at action
  rw [action]
  cases b.userChains.find? (·.chainType == ChainType.inbound.code) with
  | none => simp [Chain.defaultOf, type, default]
  | some first => simp [Chain.defaultOf]

end

/-- The chain of the user, then the whitelist for port 22. -/
def besideUser (defaultAction : Int) : AclConfig :=
  ⟨some ⟨[⟨ChainType.inbound.code, true, [], defaultAction⟩,
    ⟨ChainType.inbound.code, true, [tcpWhitelistRule 1000 ["22"]], 2⟩]⟩⟩

theorem besideUser_unmatched (defaultAction : Int) (rule : Rule) :
    ¬ (besideUser defaultAction).Applies (fun _ => none) sampleHandler.packetInfo
      .inbound rule := by
  rintro ⟨chain, chainMem, -, mem, applies⟩
  have misses : (tcpWhitelistRule 1000 ["22"]).applies (fun _ => none) sampleHandler.packetInfo =
      false := by decide +kernel
  simp only [besideUser, AclConfig.chains, List.mem_cons, List.not_mem_nil, or_false] at chainMem
  obtain rfl | rfl := chainMem
  · cases mem
  · cases misses.symm.trans (List.mem_singleton.mp mem ▸ applies)

theorem beside_dropping_user_denies :
    ∃ result p', (AclProcessor.freshProcessor (besideUser 2)).processPacket sampleEnv
      sampleHandler.packetInfo .inbound = some (result, p') ∧ result.action = .drop := by
  obtain ⟨⟨result, p'⟩, processed, -⟩ : ∃ answer ∈ (AclProcessor.freshProcessor
      (besideUser 2)).processPacket sampleEnv sampleHandler.packetInfo .inbound, True := by
    decide +kernel
  have generated : (tcpBuilder (some (inboundAcl 2)) ["22"]).generateAclFromWhitelists =
      .ok (tcpBuilder (some (besideUser 2)) ["22"]) := by decide +kernel
  refine ⟨result, p', processed, (whitelist_default_deny_iff (.inl (List.cons_ne_nil _ _))
    generated rfl (AclProcessor.freshProcessor_built (besideUser 2)) (by decide)
    (besideUser_unmatched 2) processed).mpr fun chain found => ?_⟩
  have only : (tcpBuilder (some (inboundAcl 2)) ["22"]).userChains.all
      (fun chain => Action.ofCode chain.defaultAction = .drop) = true := by decide
  simpa using List.all_eq_true.mp only chain (List.mem_of_find?_eq_some found)

/-- The user lets inbound packets through by default; a packet to port 80 passes the
whitelist for port 22. -/
theorem beside_allowing_user_passes :
    (tcpBuilder (some (inboundAcl 1)) ["22"]).generateAclFromWhitelists =
        .ok (tcpBuilder (some (besideUser 1)) ["22"]) ∧
      (∀ rule, ¬ (besideUser 1).Applies (fun _ => none) sampleHandler.packetInfo .inbound rule) ∧
      ((AclProcessor.freshProcessor (besideUser 1)).processPacket sampleEnv
        sampleHandler.packetInfo .inbound).map (·.1.action) = some .allow :=
  ⟨by decide +kernel, besideUser_unmatched 1, by decide +kernel⟩

end PeerLink.Acl
