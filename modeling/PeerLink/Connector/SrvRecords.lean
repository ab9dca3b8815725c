import Mathlib.Algebra.GroupWithZero.Nat
import PeerLink.Route.Table

/-!
# A server from SRV records

`handle_srv_record` asks for the SRV records of every protocol, and `weighted_choice` draws one of
those that can be parsed. The priority of a record is its weight.
-/

namespace PeerLink.Connector

structure SRV where
  priority : UInt16
  port : UInt16
  target : String

/-- The answer to a lookup. A DNS message counts its answers in 16 bits. -/
structure SrvAnswer where
  records : List SRV
  few : records.length < 2 ^ 16

/-- The protocols of `PROTO_PORT_OFFSET`. -/
def srvProtocols : List String := ["tcp", "udp", "wg", "ws", "wss"]

section
variable {Url : Type} (parse : String → Option Url)

def handleOneSrvRecord (record : SRV) (protocol : String) : Except String (Url × Nat) :=
  if record.port = 0 then
    .error "port must be non-zero"
  else
    let dstUrl := protocol ++ "://" ++ record.target ++ ":" ++ toString record.port
    match parse dstUrl with
    | none => .error ("parse dst_url failed, protocol: " ++ protocol ++ ", connector_dst: " ++
        record.target ++ ", port: " ++ toString record.port ++ ", dst_url: " ++ dstUrl)
    | some url => .ok (url, record.priority.toNat)

/-- The set `responses`. A lookup that fails has no records. -/
def responses [DecidableEq Url] (lookup : String → SrvAnswer) : List (Url × Nat) :=
  (srvProtocols.flatMap fun protocol => (lookup protocol).records.filterMap fun record =>
    (handleOneSrvRecord parse record protocol).toOption).dedup

end

variable {T : Type}

/-- The loop of `weighted_choice`, with the weight so far. -/
def choose (randValue : Nat) : Nat → List (T × Nat) → Option T
  | _, [] => none
  | accumulated, (item, weight) :: options =>
    let accumulated := (accumulated + weight) % 2 ^ 64
    if randValue < accumulated then some item else choose randValue accumulated options

/-- `none` is a panic: there is no number to draw below zero. -/
def weightedChoice (options : List (T × Nat)) (draw : (n : Nat) → Fin (n + 1)) :
    Option (Option T) :=
  match (options.map Prod.snd).sum % 2 ^ 64 with
  | 0 => none
  | n + 1 => some (choose (draw n) 0 options)

theorem choose_eq {randValue accumulated : Nat} {options : List (T × Nat)}
    (before : accumulated ≤ randValue)
    (drawn : randValue < accumulated + (options.map Prod.snd).sum)
    (bound : accumulated + (options.map Prod.snd).sum < 2 ^ 64) :
    ∃ item weight, choose randValue accumulated options = some item ∧
      (item, weight) ∈ options ∧ 0 < weight := by
  induction options generalizing accumulated with
  | nil => exact absurd drawn (Nat.not_lt.mpr before)
  | cons option options ih =>
    obtain ⟨item, weight⟩ := option
    rw [List.map_cons, List.sum_cons] at drawn bound
    rw [choose, Nat.mod_eq_of_lt (by omega)]
    split_ifs with here
    · exact ⟨item, weight, rfl, List.mem_cons_self, by omega⟩
    · obtain ⟨item, weight, chosen, mem, positive⟩ :=
        ih (Nat.not_lt.mp here) (by omega) (by omega)
      exact ⟨item, weight, chosen, List.mem_cons_of_mem _ mem, positive⟩

/-- A draw is possible, and hits an option of positive weight, if there is one. -/
theorem weightedChoice_iff {options : List (T × Nat)}
    (bound : (options.map Prod.snd).sum < 2 ^ 64) :
    (∀ draw, ∃ item weight, weightedChoice options draw = some (some item) ∧
        (item, weight) ∈ options ∧ ((∃ option ∈ options, 0 < option.2) → 0 < weight)) ↔
      ∃ option ∈ options, 0 < option.2 := by
  unfold weightedChoice
  rw [Nat.mod_eq_of_lt bound]
  constructor
  · intro chosen
    obtain ⟨_, _, drawn, -⟩ := chosen fun n => 0
    by_contra none
    have zero : (options.map Prod.snd).sum = 0 := by
      rw [List.sum_eq_zero_iff, List.forall_mem_map]
      exact fun option mem =>
        Nat.eq_zero_of_not_pos fun positive => none ⟨option, mem, positive⟩
    rw [zero] at drawn
    cases drawn
  · rintro ⟨option, mem, positive⟩ draw
    have total : option.2 ≤ (options.map Prod.snd).sum :=
      List.single_le_sum (fun _ _ => Nat.zero_le _) _ (List.mem_map_of_mem mem)
    obtain ⟨n, sum⟩ := Nat.exists_eq_add_one.mpr (positive.trans_le total)
    rw [sum]
    obtain ⟨item, weight, chosen, found, heavy⟩ :=
      @choose_eq _ (draw n) 0 options (Nat.zero_le _) (by omega) (by omega)
    exact ⟨item, weight, congrArg some chosen, found, fun _ => heavy⟩

section
variable {Url : Type} [DecidableEq Url] (parse : String → Option Url) (lookup : String → SrvAnswer)

theorem responses_few : (responses parse lookup).length ≤ 5 * 2 ^ 16 := by
  refine (List.dedup_sublist _).length_le.trans ?_
  rw [List.length_flatMap]
  refine (List.sum_le_card_nsmul _ (2 ^ 16) ?_).trans (by simp [srvProtocols])
  simp only [List.forall_mem_map]
  intro protocol _
  exact (List.length_filterMap_le _ _).trans (lookup protocol).few.le

theorem weight_lt {url : Url} {weight : Nat} (mem : (url, weight) ∈ responses parse lookup) :
    weight < 2 ^ 16 := by
  simp only [responses, List.mem_dedup, List.mem_flatMap, List.mem_filterMap] at mem
  obtain ⟨protocol, -, record, -, parsed⟩ := mem
  unfold handleOneSrvRecord at parsed
  split_ifs at parsed
  · cases parsed
  · dsimp only at parsed
    split at parsed
    · cases parsed
    · cases parsed
      exact record.priority.toNat_lt

/-- **A server is chosen exactly if one has a priority above zero**, whatever is drawn and in which
order the set is gone through: then the choice returns one of the records, of positive weight.
Otherwise it panics. -/
theorem srv_choice_iff (order : Route.IterOrder (Url × Nat)) :
    let records := order.order (responses parse lookup)
    (∀ draw, ∃ url weight, weightedChoice records draw = some (some url) ∧
        (url, weight) ∈ records ∧ ((∃ record ∈ records, 0 < record.2) → 0 < weight)) ↔
      ∃ record ∈ responses parse lookup, 0 < record.2 := by
  intro records
  have perm := order.perm (responses parse lookup)
  have bound : (records.map Prod.snd).sum < 2 ^ 64 := by
    refine (List.sum_le_card_nsmul _ (2 ^ 16) ?_).trans_lt ?_
    · simp only [List.forall_mem_map]
      exact fun record mem => (weight_lt parse lookup (perm.mem_iff.mp mem)).le
    · have few := responses_few parse lookup
      rw [List.length_map, perm.length_eq, Nat.nsmul_eq_mul]
      omega
  rw [weightedChoice_iff bound]
  simp only [records, perm.mem_iff]

end

/-- Every protocol has one server, of priority zero. -/
def onlyServer (_ : String) : SrvAnswer := ⟨[⟨0, 11010, "a"⟩], by decide⟩

theorem priority_zero_panics :
    responses some onlyServer ≠ [] ∧ (∀ protocol, ∀ record ∈ (onlyServer protocol).records,
      record.port ≠ 0) ∧ ∀ draw, weightedChoice (responses some onlyServer) draw = none := by
  refine ⟨by decide +kernel, by simp [onlyServer], fun draw => ?_⟩
  have zero : ((responses some onlyServer).map Prod.snd).sum = 0 := by decide +kernel
  rw [weightedChoice, zero]
  rfl

end PeerLink.Connector
