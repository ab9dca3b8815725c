import PeerLink.Dns.MagicServer
import PeerLink.Schedule.Along

/-!
# The records that are served

No record that should be served is missing (`Inv.complete`), but records stay: those of earlier
reports of a client, since `insert_many` appends, and those of a zone whose last client has gone,
since only the zones that are left get a new authority. `served_exactly_iff` says for which
operations nothing stays.
-/

namespace PeerLink.MagicDns

open Schedule

variable {Name Url : Type} {lib : Library Name}

/-! ## Entries -/

def Has (entries : List (Entry Url)) (zone : String) (client : Url) : Prop :=
  ∃ entry ∈ entries, entry.zone = zone ∧ entry.client = client

def Holds (entries : List (Entry Url)) (zone : String) (client : Url) (route : Route) : Prop :=
  ∃ entry ∈ entries, entry.zone = zone ∧ entry.client = client ∧ route ∈ entry.routes

section
variable {entries : List (Entry Url)} {zone z : String} {client c : Url} {routes : List Route}
  {route : Route} {record : Name × UInt32}

theorem Holds.has (holds : Holds entries zone client route) : Has entries zone client := by
  obtain ⟨entry, mem, inZone, ofClient, -⟩ := holds
  exact ⟨entry, mem, inZone, ofClient⟩

theorem mem_storedRoutes : route ∈ storedRoutes entries zone ↔ ∃ c, Holds entries zone c route := by
  simp only [storedRoutes, Holds, List.mem_flatMap, List.mem_filter, decide_eq_true_eq]
  constructor
  · rintro ⟨entry, ⟨mem, inZone⟩, here⟩
    exact ⟨entry.client, entry, mem, inZone, rfl, here⟩
  · rintro ⟨c, entry, mem, inZone, -, here⟩
    exact ⟨entry, ⟨mem, inZone⟩, here⟩

theorem mem_zones : zone ∈ zones entries ↔ ∃ c, Has entries zone c := by
  simp only [zones, Has, List.mem_dedup, List.mem_map]
  constructor
  · rintro ⟨entry, mem, inZone⟩
    exact ⟨entry.client, entry, mem, inZone, rfl⟩
  · rintro ⟨c, entry, mem, inZone, -⟩
    exact ⟨entry, mem, inZone⟩

theorem mem_records :
    record ∈ records lib zone routes ↔ ∃ route ∈ routes, aRecord lib zone route = some record :=
  List.mem_filterMap

variable [DecidableEq Url]

theorem any_iff_has :
    (entries.any fun entry => entry.zone = zone ∧ entry.client = client) = true ↔
      Has entries zone client := by
  simp [Has]

/-- `p` is decided route by route. -/
theorem exists_insertMany {p : List Route → Prop} (append : ∀ a b, p (a ++ b) ↔ p a ∨ p b) :
    (∃ entry ∈ insertMany entries zone client routes,
        entry.zone = z ∧ entry.client = c ∧ p entry.routes) ↔
      z = zone ∧ c = client ∧ p routes ∨
        ∃ entry ∈ entries, entry.zone = z ∧ entry.client = c ∧ p entry.routes := by
  unfold insertMany
  split_ifs with present
  · obtain ⟨old, here, oldZone, oldClient⟩ := any_iff_has.mp present
    constructor
    · rintro ⟨changed, inMap, inZone, ofClient, inRoutes⟩
      obtain ⟨entry, mem, rfl⟩ := List.mem_map.mp inMap
      split_ifs at inZone with same
      · rw [if_pos same] at ofClient inRoutes
        obtain stored | new := (append _ _).mp inRoutes
        · exact .inr ⟨entry, mem, inZone, ofClient, stored⟩
        · exact .inl ⟨inZone.symm.trans same.1, ofClient.symm.trans same.2, new⟩
      · rw [if_neg same] at ofClient inRoutes
        exact .inr ⟨entry, mem, inZone, ofClient, inRoutes⟩
    · rintro (⟨rfl, rfl, new⟩ | ⟨entry, mem, rfl, rfl, stored⟩)
      · refine ⟨_, List.mem_map_of_mem here, ?_⟩
        rw [if_pos ⟨oldZone, oldClient⟩]
        exact ⟨oldZone, oldClient, (append _ _).mpr (.inr new)⟩
      · refine ⟨_, List.mem_map_of_mem mem, ?_⟩
        split
        · exact ⟨rfl, rfl, (append _ _).mpr (.inl stored)⟩
        · exact ⟨rfl, rfl, stored⟩
  · simp only [List.mem_append, List.mem_singleton]
    constructor
    · rintro ⟨entry, mem | rfl, rfl, rfl, inRoutes⟩
      · exact .inr ⟨entry, mem, rfl, rfl, inRoutes⟩
      · exact .inl ⟨rfl, rfl, inRoutes⟩
    · rintro (⟨rfl, rfl, new⟩ | ⟨entry, mem, rfl, rfl, stored⟩)
      · exact ⟨_, .inr rfl, rfl, rfl, new⟩
      · exact ⟨entry, .inl mem, rfl, rfl, stored⟩

theorem has_insertMany :
    Has (insertMany entries zone client routes) z c ↔
      z = zone ∧ c = client ∨ Has entries z c := by
  simpa [Has] using exists_insertMany (p := fun _ => True) (by simp)

theorem holds_insertMany :
    Holds (insertMany entries zone client routes) z c route ↔
      z = zone ∧ c = client ∧ route ∈ routes ∨ Holds entries z c route :=
  exists_insertMany fun _ _ => List.mem_append

theorem exists_filter {p : List Route → Prop} :
    (∃ entry ∈ entries.filter fun entry => entry.client ≠ client,
        entry.zone = z ∧ entry.client = c ∧ p entry.routes) ↔
      c ≠ client ∧ ∃ entry ∈ entries, entry.zone = z ∧ entry.client = c ∧ p entry.routes := by
  simp only [List.mem_filter, decide_eq_true_eq]
  constructor
  · rintro ⟨entry, ⟨mem, other⟩, inZone, rfl, here⟩
    exact ⟨other, entry, mem, inZone, rfl, here⟩
  · rintro ⟨other, entry, mem, inZone, rfl, here⟩
    exact ⟨entry, ⟨mem, other⟩, inZone, rfl, here⟩

theorem has_filter :
    Has (entries.filter fun entry => entry.client ≠ client) z c ↔ c ≠ client ∧ Has entries z c := by
  simpa [Has] using exists_filter (p := fun _ => True)

theorem holds_filter :
    Holds (entries.filter fun entry => entry.client ≠ client) z c route ↔
      c ≠ client ∧ Holds entries z c route :=
  exists_filter

/-- What a report adds to the records of its zone. -/
theorem mem_records_insertMany :
    record ∈ records lib zone (storedRoutes (insertMany entries zone client routes) zone) ↔
      record ∈ records lib zone routes ∨ record ∈ records lib zone (storedRoutes entries zone) := by
  simp only [mem_records, mem_storedRoutes, holds_insertMany, true_and]
  constructor
  · rintro ⟨route, ⟨c, ⟨-, new⟩ | old⟩, same⟩
    · exact .inl ⟨route, new, same⟩
    · exact .inr ⟨route, ⟨c, old⟩, same⟩
  · rintro (⟨route, new, same⟩ | ⟨route, ⟨c, old⟩, same⟩)
    · exact ⟨route, ⟨client, .inl ⟨rfl, new⟩⟩, same⟩
    · exact ⟨route, ⟨c, .inr old⟩, same⟩

end

/-! ## Authorities -/

variable [DecidableEq Name]

/-- The A records of the authority of a zone. -/
def Served (data : MagicDnsServerInstanceData Name Url) (name : Name) (record : Name × UInt32) :
    Prop :=
  ∃ served, data.authorities.lookup name = some served ∧ record ∈ served

/-- The zones in use are different names, and an authority can be built for each. -/
structure Zoned (lib : Library Name) (Z : String → Prop) : Prop where
  builds : ∀ zone, Z zone → (lib.parse zone).isSome = true → soaBuilds lib zone = true
  distinct : ∀ zone zone' name, Z zone → Z zone' → lib.parse zone = some name →
    lib.parse zone' = some name → zone = zone'

def Operation.zone : Operation Url → Option String
  | .updateDnsRecord _ zone _ => some zone
  | .clientDisconnected _ => none

def reportedZones (operations : List (Operation Url)) : List String :=
  operations.filterMap Operation.zone

section
variable (routesOf : String → List Route) (authorities : AList fun _ : Name => List (Name × UInt32))
  {name : Name} {zone : String} {zs : List String}

theorem lookup_foldl_other (other : ∀ z ∈ zs, lib.parse z ≠ some name) :
    (zs.foldl (fun authorities z => updateDnsRecords lib authorities z (routesOf z))
      authorities).lookup name = authorities.lookup name := by
  induction zs generalizing authorities with
  | nil => rfl
  | cons z zs ih =>
    obtain ⟨here, later⟩ := List.forall_mem_cons.mp other
    rw [List.foldl_cons, ih _ later, updateDnsRecords]
    split
    · rfl
    · rename_i found parsed
      have ne : name ≠ found := by
        rintro rfl
        exact here parsed
      split
      · exact AList.lookup_insert_ne ne
      · rfl

theorem lookup_foldl_zone (mem : zone ∈ zs) (parsed : lib.parse zone = some name)
    (builds : soaBuilds lib zone = true) (only : ∀ z ∈ zs, lib.parse z = some name → z = zone) :
    (zs.foldl (fun authorities z => updateDnsRecords lib authorities z (routesOf z))
      authorities).lookup name = some (records lib zone (routesOf zone)) := by
  induction zs generalizing authorities with
  | nil => cases mem
  | cons z zs ih =>
    obtain ⟨here, later⟩ := List.forall_mem_cons.mp only
    rw [List.foldl_cons]
    by_cases again : zone ∈ zs
    · exact ih _ again later
    · obtain rfl := (List.mem_cons.mp mem).resolve_right again
      have other : ∀ z ∈ zs, lib.parse z ≠ some name := by
        intro z' mem' same
        exact again (later z' mem' same ▸ mem')
      rw [lookup_foldl_other routesOf _ other]
      simp only [updateDnsRecords, parsed, builds, if_true]
      exact AList.lookup_insert _

end

section
variable {Z : String → Prop} {data : MagicDnsServerInstanceData Name Url} {zone : String}
  {client : Url} {name : Name} {record : Name × UInt32}

theorem served_update (zoned : Zoned lib Z) (admitted : ∀ z c, Has data.routeInfos z c → Z z)
    (has : Has data.routeInfos zone client) (parsed : lib.parse zone = some name) :
    Served (data.update lib) name record ↔
      record ∈ records lib zone (storedRoutes data.routeInfos zone) := by
  have mem : zone ∈ lib.arrange (zones data.routeInfos) :=
    (lib.mem_arrange _ _).mpr (mem_zones.mpr ⟨client, has⟩)
  have only : ∀ z ∈ lib.arrange (zones data.routeInfos), lib.parse z = some name → z = zone := by
    intro z mem' parsed'
    obtain ⟨c, has'⟩ := mem_zones.mp ((lib.mem_arrange _ _).mp mem')
    exact zoned.distinct z zone name (admitted z c has') (admitted zone client has) parsed' parsed
  have found := lookup_foldl_zone (storedRoutes data.routeInfos) data.authorities mem parsed
    (zoned.builds zone (admitted zone client has) (by rw [parsed]; rfl)) only
  constructor
  · rintro ⟨served, looked, here⟩
    rw [Option.some.inj (found.symm.trans looked)]
    exact here
  · intro here
    exact ⟨_, found, here⟩

theorem served_update_other (other : ∀ z c, Has data.routeInfos z c → lib.parse z ≠ some name) :
    Served (data.update lib) name record ↔ Served data name record := by
  have others : ∀ z ∈ lib.arrange (zones data.routeInfos), lib.parse z ≠ some name := by
    intro z mem
    obtain ⟨c, has⟩ := mem_zones.mp ((lib.mem_arrange _ _).mp mem)
    exact other z c has
  have unchanged := lookup_foldl_other (storedRoutes data.routeInfos) data.authorities others
  unfold Served
  rw [← unchanged]
  rfl

/-! ## What should be served -/

variable [DecidableEq Url]

/-- Some connected client's latest report for the zone has the record. -/
def Expected (lib : Library Name) (data : MagicDnsServerInstanceData Name Url) (name : Name)
    (record : Name × UInt32) : Prop :=
  ∃ zone client routes, lib.parse zone = some name ∧
    lastReport zone client data.history = some routes ∧ record ∈ records lib zone routes

def Exact (lib : Library Name) (data : MagicDnsServerInstanceData Name Url) : Prop :=
  ∀ name record, Served data name record ↔ Expected lib data name record

structure Inv (lib : Library Name) (Z : String → Prop)
    (data : MagicDnsServerInstanceData Name Url) : Prop where
  admitted : ∀ zone client, Has data.routeInfos zone client → Z zone
  reported : ∀ zone client, Has data.routeInfos zone client ↔
    ∃ routes, lastReport zone client data.history = some routes
  latest : ∀ zone client routes, lastReport zone client data.history = some routes →
    ∀ route ∈ routes, Holds data.routeInfos zone client route
  served : ∀ zone client name, Has data.routeInfos zone client → lib.parse zone = some name →
    ∀ record, Served data name record ↔
      record ∈ records lib zone (storedRoutes data.routeInfos zone)

theorem new_inv : Inv lib Z (new : MagicDnsServerInstanceData Name Url) := by
  have none_has (zone : String) (client : Url) :
      ¬ Has (new : MagicDnsServerInstanceData Name Url).routeInfos zone client := by
    rintro ⟨entry, mem, -⟩
    cases mem
  refine ⟨fun z c has => absurd has (none_has z c), fun z c => ?_, ?_,
    fun z c name has => absurd has (none_has z c)⟩
  · refine iff_of_false (none_has z c) ?_
    rintro ⟨routes, reported⟩
    cases reported
  · intro z c routes reported
    cases reported

section
variable (inv : Inv lib Z data)
include inv

/-- No record is missing. -/
theorem Inv.complete (expected : Expected lib data name record) : Served data name record := by
  obtain ⟨zone, client, routes, parsed, reported, here⟩ := expected
  have has := (inv.reported zone client).mpr ⟨routes, reported⟩
  rw [inv.served zone client name has parsed, mem_records]
  obtain ⟨route, mem, same⟩ := mem_records.mp here
  have holds := inv.latest zone client routes reported route mem
  exact ⟨route, mem_storedRoutes.mpr ⟨client, holds⟩, same⟩

theorem Inv.exact_iff :
    Exact lib data ↔ ∀ name record, Served data name record → Expected lib data name record :=
  ⟨fun exact name record => (exact name record).mp,
    fun sound name record => ⟨sound name record, inv.complete⟩⟩

/-- The zone of a record that should be served is the only one of its name. -/
theorem Inv.expected_iff (zoned : Zoned lib Z) (inUse : Z zone)
    (parsed : lib.parse zone = some name) :
    Expected lib data name record ↔ ∃ client routes,
      lastReport zone client data.history = some routes ∧ record ∈ records lib zone routes := by
  constructor
  · rintro ⟨z, client, routes, parsed', reported, here⟩
    have has := (inv.reported z client).mpr ⟨routes, reported⟩
    obtain rfl := zoned.distinct z zone name (inv.admitted z client has) inUse parsed' parsed
    exact ⟨client, routes, reported, here⟩
  · rintro ⟨client, routes, reported, here⟩
    exact ⟨zone, client, routes, parsed, reported, here⟩

/-! ## The condition -/

/-- The latest reports for the zone of the clients other than `client`. -/
def otherReports (data : MagicDnsServerInstanceData Name Url) (zone : String) (client : Url) :
    List Route :=
  (data.routeInfos.filter fun entry => entry.zone = zone ∧ entry.client ≠ client).flatMap
    fun entry => (lastReport zone entry.client data.history).getD []

/-- A report repeats every record that is stored for the zone, or another client's latest report
has it. When a client goes, the latest reports of the others have every record that they have
stored for a zone of its, and if there are no others, no record is stored for the zone. -/
def Fits (lib : Library Name) (data : MagicDnsServerInstanceData Name Url) :
    Operation Url → Prop
  | .updateDnsRecord (some ⟨some remoteAddr⟩) zone routes => (lib.parse zone).isSome = true →
    ∀ record ∈ records lib zone (storedRoutes data.routeInfos zone),
      record ∈ records lib zone (routes ++ otherReports data zone remoteAddr)
  | .clientDisconnected (some ⟨some remoteAddr⟩) =>
    let left := data.routeInfos.filter fun entry => entry.client ≠ remoteAddr
    ∀ entry ∈ data.routeInfos, entry.client = remoteAddr → (lib.parse entry.zone).isSome = true →
      ∀ record ∈ records lib entry.zone
          (storedRoutes (if entry.zone ∈ zones left then left else data.routeInfos) entry.zone),
        record ∈ records lib entry.zone (otherReports data entry.zone remoteAddr)
  | _ => True

instance (lib : Library Name) (data : MagicDnsServerInstanceData Name Url) :
    (operation : Operation Url) → Decidable (Fits lib data operation)
  | .updateDnsRecord (some ⟨some _⟩) _ _ => inferInstanceAs (Decidable (_ → _))
  | .clientDisconnected (some ⟨some _⟩) => inferInstanceAs (Decidable (∀ entry ∈ _, _))
  | .updateDnsRecord none _ _ | .updateDnsRecord (some ⟨none⟩) _ _
  | .clientDisconnected none | .clientDisconnected (some ⟨none⟩) => inferInstanceAs (Decidable True)

variable {routes : List Route} {entries : List (Entry Url)} {operation : Operation Url}

theorem Inv.mem_otherReports :
    record ∈ records lib zone (otherReports data zone client) ↔ ∃ c routes, c ≠ client ∧
      lastReport zone c data.history = some routes ∧ record ∈ records lib zone routes := by
  simp only [mem_records, otherReports, List.mem_flatMap, List.mem_filter, decide_eq_true_eq]
  constructor
  · rintro ⟨route, ⟨entry, ⟨mem, rfl, other⟩, here⟩, same⟩
    obtain ⟨routes, reported⟩ := (inv.reported _ _).mp ⟨entry, mem, rfl, rfl⟩
    rw [reported, Option.getD_some] at here
    exact ⟨entry.client, routes, other, reported, route, here, same⟩
  · rintro ⟨c, routes, other, reported, route, here, same⟩
    obtain ⟨entry, mem, rfl, rfl⟩ := (inv.reported _ _).mpr ⟨routes, reported⟩
    refine ⟨route, ⟨entry, ⟨mem, rfl, other⟩, ?_⟩, same⟩
    rw [reported, Option.getD_some]
    exact here

/-- A client has reported. -/
def afterReport (lib : Library Name) (data : MagicDnsServerInstanceData Name Url) (client : Url)
    (zone : String) (routes : List Route) : MagicDnsServerInstanceData Name Url :=
  { ({ data with routeInfos := insertMany data.routeInfos zone client routes }.update lib) with
    history := .updateDnsRecord (some ⟨some client⟩) zone routes :: data.history }

/-- A client has gone. -/
def afterDeparture (lib : Library Name) (data : MagicDnsServerInstanceData Name Url)
    (client : Url) : MagicDnsServerInstanceData Name Url :=
  { ({ data with
        routeInfos := data.routeInfos.filter fun entry => entry.client ≠ client }.update lib) with
    history := .clientDisconnected (some ⟨some client⟩) :: data.history }

section
variable (zoned : Zoned lib Z)
include zoned

theorem Inv.report (inUse : Z zone) : Inv lib Z (afterReport lib data client zone routes) := by
  have admitted : ∀ z c, Has (insertMany data.routeInfos zone client routes) z c → Z z := by
    intro z c has
    obtain ⟨rfl, -⟩ | before := has_insertMany.mp has
    · exact inUse
    · exact inv.admitted z c before
  refine ⟨admitted, fun z c => ?_, fun z c latest reported => ?_, fun z c name has parsed record =>
    served_update zoned admitted has parsed⟩
  · refine has_insertMany.trans ?_
    simp only [afterReport, lastReport]
    split
    · rename_i same
      exact iff_of_true (.inl ⟨same.1.symm, same.2.symm⟩) ⟨routes, rfl⟩
    · rename_i other
      rw [inv.reported]
      refine ⟨fun before => before.resolve_left fun same => other ⟨same.1.symm, same.2.symm⟩, .inr⟩
  · intro route here
    simp only [afterReport, lastReport] at reported
    refine holds_insertMany.mpr ?_
    split at reported
    · rename_i same
      cases reported
      exact .inl ⟨same.1.symm, same.2.symm, here⟩
    · exact .inr (inv.latest z c latest reported route here)

theorem Inv.departure : Inv lib Z (afterDeparture lib data client) := by
  have admitted : ∀ z c, Has (data.routeInfos.filter fun entry => entry.client ≠ client) z c →
      Z z := fun z c has => inv.admitted z c (has_filter.mp has).2
  refine ⟨admitted, fun z c => ?_, fun z c latest reported => ?_, fun z c name has parsed record =>
    served_update zoned admitted has parsed⟩
  · refine has_filter.trans ?_
    simp only [afterDeparture, lastReport]
    split
    · rename_i same
      simp [same]
    · rename_i other
      rw [inv.reported]
      exact and_iff_right (Ne.symm other)
  · intro route here
    simp only [afterDeparture, lastReport] at reported
    split at reported
    · cases reported
    · rename_i other
      exact holds_filter.mpr ⟨Ne.symm other, inv.latest z c latest reported route here⟩

/-- An update leaves a name alone if the entries of its zones stay as they are. -/
theorem Inv.served_unchanged (admitted : ∀ z c, Has entries z c → Z z)
    (has_iff : ∀ z c, lib.parse z = some name → (Has entries z c ↔ Has data.routeInfos z c))
    (holds_iff : ∀ z c route, lib.parse z = some name →
      (Holds entries z c route ↔ Holds data.routeInfos z c route)) :
    Served ({ data with routeInfos := entries }.update lib) name record ↔
      Served data name record := by
  by_cases inUse : ∃ z c, Has entries z c ∧ lib.parse z = some name
  · obtain ⟨z, c, has, parsed⟩ := inUse
    rw [inv.served z c name ((has_iff z c parsed).mp has) parsed record,
      served_update zoned admitted has parsed]
    simp [mem_records, mem_storedRoutes, holds_iff z _ _ parsed]
  · exact served_update_other fun z c has parsed => inUse ⟨z, c, has, parsed⟩

/-! ### Reports -/

theorem Inv.expected_report (inUse : Z zone) (parsed : lib.parse zone = some name) :
    Expected lib (afterReport lib data client zone routes) name record ↔
      record ∈ records lib zone (routes ++ otherReports data zone client) := by
  rw [(inv.report zoned inUse).expected_iff zoned inUse parsed, records, List.filterMap_append,
    List.mem_append]
  refine Iff.trans ?_ (or_congr_right inv.mem_otherReports.symm)
  simp only [afterReport, lastReport, true_and]
  constructor
  · rintro ⟨c, latest, reported, here⟩
    split_ifs at reported with other
    · cases reported
      exact .inl here
    · exact .inr ⟨c, latest, Ne.symm other, reported, here⟩
  · rintro (here | ⟨c, latest, other, reported, here⟩)
    · exact ⟨client, routes, if_pos rfl, here⟩
    · exact ⟨c, latest, (if_neg other.symm).trans reported, here⟩

/-- Other names are as before. -/
theorem Inv.report_other (inUse : Z zone) (exact : Exact lib data)
    (other : lib.parse zone ≠ some name)
    (served : Served (afterReport lib data client zone routes) name record) :
    Expected lib (afterReport lib data client zone routes) name record := by
  have apart (z : String) (parsed : lib.parse z = some name) : z ≠ zone := by
    rintro rfl
    exact other parsed
  have before : Served data name record := by
    refine (inv.served_unchanged zoned (inv.report zoned inUse).admitted (fun z c parsed => ?_)
      fun z c route parsed => ?_).mp served
    · exact has_insertMany.trans (or_iff_right fun same => apart z parsed same.1)
    · exact holds_insertMany.trans (or_iff_right fun same => apart z parsed same.1)
  obtain ⟨z, c, latest, parsed, reported, here⟩ := (exact name record).mp before
  exact ⟨z, c, latest, parsed,
    (if_neg fun same => apart z parsed same.1.symm).trans reported, here⟩

theorem Inv.report_exact_iff (inUse : Z zone) (exact : Exact lib data) :
    Exact lib (afterReport lib data client zone routes) ↔
      Fits lib data (.updateDnsRecord (some ⟨some client⟩) zone routes) := by
  have after : Inv lib Z (afterReport lib data client zone routes) := inv.report zoned inUse
  have has : Has (insertMany data.routeInfos zone client routes) zone client :=
    has_insertMany.mpr (.inl ⟨rfl, rfl⟩)
  rw [after.exact_iff]
  constructor
  · intro sound valid record stored
    obtain ⟨name, parsed⟩ := Option.isSome_iff_exists.mp valid
    rw [← inv.expected_report zoned inUse parsed]
    apply sound
    rw [after.served zone client name has parsed]
    exact mem_records_insertMany.mpr (.inr stored)
  · intro fits name record served
    by_cases parsed : lib.parse zone = some name
    · rw [inv.expected_report zoned inUse parsed]
      rw [after.served zone client name has parsed] at served
      obtain new | stored := mem_records_insertMany.mp served
      · rw [records, List.filterMap_append]
        exact List.mem_append_left _ new
      · exact fits (by rw [parsed]; rfl) record stored
    · exact inv.report_other zoned inUse exact parsed served

/-! ### Departures -/

theorem Inv.expected_departure (inUse : Z zone) (parsed : lib.parse zone = some name) :
    Expected lib (afterDeparture lib data client) name record ↔
      record ∈ records lib zone (otherReports data zone client) := by
  rw [(inv.departure zoned).expected_iff zoned inUse parsed, inv.mem_otherReports]
  simp only [afterDeparture, lastReport]
  constructor
  · rintro ⟨c, latest, reported, here⟩
    split at reported
    · cases reported
    · rename_i other
      exact ⟨c, latest, Ne.symm other, reported, here⟩
  · rintro ⟨c, latest, other, reported, here⟩
    exact ⟨c, latest, (if_neg other.symm).trans reported, here⟩

/-- A zone that no client is left for keeps its authority. -/
theorem Inv.served_departure (has : Has data.routeInfos zone client)
    (parsed : lib.parse zone = some name) :
    let left := data.routeInfos.filter fun entry => entry.client ≠ client
    Served (afterDeparture lib data client) name record ↔
      record ∈ records lib zone
        (storedRoutes (if zone ∈ zones left then left else data.routeInfos) zone) := by
  intro left
  split_ifs with someLeft
  · obtain ⟨c, hasLeft⟩ := mem_zones.mp someLeft
    exact (inv.departure zoned).served zone c name hasLeft parsed record
  · rw [← inv.served zone client name has parsed record]
    refine served_update_other fun z c hasLeft parsed' => ?_
    obtain rfl := zoned.distinct z zone name ((inv.departure zoned).admitted z c hasLeft)
      (inv.admitted zone client has) parsed' parsed
    exact someLeft (mem_zones.mpr ⟨c, hasLeft⟩)

theorem Inv.departure_other (exact : Exact lib data)
    (other : ∀ z, Has data.routeInfos z client → lib.parse z ≠ some name)
    (served : Served (afterDeparture lib data client) name record) :
    Expected lib (afterDeparture lib data client) name record := by
  have before : Served data name record := by
    refine (inv.served_unchanged zoned (inv.departure zoned).admitted (fun z c parsed => ?_)
      fun z c route parsed => ?_).mp served
    · refine has_filter.trans (and_iff_right_of_imp ?_)
      rintro has rfl
      exact other z has parsed
    · refine holds_filter.trans (and_iff_right_of_imp ?_)
      rintro holds rfl
      exact other z holds.has parsed
  obtain ⟨z, c, latest, parsed, reported, here⟩ := (exact name record).mp before
  have stays : client ≠ c := by
    rintro rfl
    exact other z ((inv.reported z client).mpr ⟨latest, reported⟩) parsed
  exact ⟨z, c, latest, parsed, (if_neg stays).trans reported, here⟩

theorem Inv.departure_exact_iff (exact : Exact lib data) :
    Exact lib (afterDeparture lib data client) ↔
      Fits lib data (.clientDisconnected (some ⟨some client⟩)) := by
  have after : Inv lib Z (afterDeparture lib data client) := inv.departure zoned
  rw [after.exact_iff]
  constructor
  · rintro sound entry mem rfl valid record stored
    have has : Has data.routeInfos entry.zone entry.client := ⟨entry, mem, rfl, rfl⟩
    obtain ⟨name, parsed⟩ := Option.isSome_iff_exists.mp valid
    rw [← inv.expected_departure zoned (inv.admitted _ _ has) parsed]
    exact sound name record ((inv.served_departure zoned has parsed).mpr stored)
  · intro fits name record served
    by_cases ofClient : ∃ z, Has data.routeInfos z client ∧ lib.parse z = some name
    · obtain ⟨z, has, parsed⟩ := ofClient
      rw [inv.expected_departure zoned (inv.admitted z client has) parsed]
      have stored := (inv.served_departure zoned has parsed).mp served
      obtain ⟨entry, mem, rfl, rfl⟩ := has
      exact fits entry mem rfl (by rw [parsed]; rfl) record stored
    · exact inv.departure_other zoned exact (fun z has parsed => ofClient ⟨z, has, parsed⟩) served

end

/-! ### Every operation -/

/-- An operation without the address of a client changes nothing. -/
theorem Inv.ignored
    (same : ∀ z c, lastReport z c (operation :: data.history) = lastReport z c data.history) :
    Inv lib Z { data with history := operation :: data.history } := by
  refine ⟨inv.admitted, fun z c => ?_, fun z c latest reported => ?_, inv.served⟩
  · rw [same]
    exact inv.reported z c
  · exact inv.latest z c latest ((same z c).symm.trans reported)

end

theorem Exact.ignored (exact : Exact lib data)
    (same : ∀ z c, lastReport z c (operation :: data.history) = lastReport z c data.history) :
    Exact lib { data with history := operation :: data.history } := by
  intro name record
  refine (exact name record).trans ?_
  simp [Expected, same]

theorem step_exact (inv : Inv lib Z data) (zoned : Zoned lib Z)
    (inUse : ∀ zone, operation.zone = some zone → Z zone) (exact : Exact lib data) :
    ∃ data', step lib data operation = some data' ∧ Inv lib Z data' ∧
      (Exact lib data' ↔ Fits lib data operation) := by
  refine ⟨_, rfl, ?_⟩
  match operation with
  | .updateDnsRecord (some ⟨some client⟩) zone routes =>
    exact ⟨inv.report zoned (inUse zone rfl), inv.report_exact_iff zoned (inUse zone rfl) exact⟩
  | .clientDisconnected (some ⟨some client⟩) =>
    exact ⟨inv.departure zoned, inv.departure_exact_iff zoned exact⟩
  | .updateDnsRecord none _ _ | .updateDnsRecord (some ⟨none⟩) _ _
  | .clientDisconnected none | .clientDisconnected (some ⟨none⟩) =>
    exact ⟨inv.ignored fun _ _ => rfl, iff_of_true (exact.ignored fun _ _ => rfl) trivial⟩

end

variable [DecidableEq Url]

theorem new_exact : Exact lib (new : MagicDnsServerInstanceData Name Url) := by
  intro name record
  constructor
  · rintro ⟨served, found, -⟩
    cases found
  · rintro ⟨zone, client, routes, -, reported, -⟩
    cases reported

/-- **What is served.** The A records of every zone are those of the latest reports of the clients
that are connected, after each of the operations, if and only if no operation leaves a record
behind. -/
theorem served_exactly_iff (lib : Library Name) (operations : List (Operation Url))
    (zoned : Zoned lib (· ∈ reportedZones operations)) :
    (∀ data ∈ visited (step lib) new operations, Exact lib data) ↔
      ∀ move ∈ moves (step lib) new operations, Fits lib move.1 move.2 := by
  have keeps (data : MagicDnsServerInstanceData Name Url) (operation : Operation Url)
      (admitted : ∀ zone, operation.zone = some zone → zone ∈ reportedZones operations)
      (inv : Inv lib (· ∈ reportedZones operations) data) (exact : Exact lib data) :=
    step_exact inv zoned admitted exact
  refine visited_iff_moves keeps ?_ new_inv new_exact
  intro operation mem zone named
  exact List.mem_filterMap.mpr ⟨operation, mem, named⟩

/-- Names without syntax, and zones in the order in which they came. -/
def plainNames : Library (List Char) where
  parse text := some (text.toList.map Char.toLower)
  arrange := id
  mem_arrange _ _ := Iff.rfl

def host (name : String) (address : UInt32) : Route := ⟨name, some ⟨some address, 24⟩⟩

def report (client : Nat) (routes : List Route) : Operation Nat :=
  .updateDnsRecord (some ⟨some client⟩) "et.net." routes

/-- A new host comes, and one of two clients goes. -/
def hostsCome : List (Operation Nat) :=
  [report 1 [host "a" 1], report 2 [host "b" 2], report 1 [host "a" 1, host "c" 3],
    .clientDisconnected (some ⟨some 1⟩)]

theorem hostsCome_served :
    Zoned plainNames (· ∈ reportedZones hostsCome) ∧
      ∀ data ∈ visited (step plainNames) new hostsCome, Exact plainNames data := by
  have only (zone : String) (mem : zone ∈ reportedZones hostsCome) : zone = "et.net." := by
    revert mem
    simp [reportedZones, hostsCome, report, Operation.zone]
  have zoned : Zoned plainNames (· ∈ reportedZones hostsCome) := by
    refine ⟨fun zone mem _ => ?_, fun zone zone' name mem mem' _ _ => ?_⟩
    · rw [only zone mem]
      decide +kernel
    · rw [only zone mem, only zone' mem']
  exact ⟨zoned, (served_exactly_iff plainNames hostsCome zoned).mpr (by decide +kernel)⟩

/-- A host that is not in the second report of its client is still served, and so is the host of
a client that has gone. -/
theorem hosts_stay :
    let a := ("a.et.net.".toList, (1 : UInt32))
    let b := ("b.et.net.".toList, (2 : UInt32))
    (∃ data, final (step plainNames) new
        [report 1 [host "a" 1], report 1 [host "b" 2]] = some data ∧
      data.authorities.lookup "et.net.".toList = some [a, b] ∧
      ¬ Expected plainNames data "et.net.".toList a) ∧
    ∃ data, final (step plainNames) new
        [report 1 [host "a" 1], .clientDisconnected (some ⟨some 1⟩)] = some data ∧
      data.authorities.lookup "et.net.".toList = some [a] ∧
      ¬ Expected plainNames data "et.net.".toList a := by
  refine ⟨⟨_, rfl, by decide +kernel, ?_⟩, ⟨_, rfl, by decide +kernel, ?_⟩⟩
  · rintro ⟨zone, client, routes, -, reported, here⟩
    simp only [report, lastReport, new] at reported
    split at reported
    · rename_i last
      obtain rfl := last.1
      cases reported
      revert here
      decide +kernel
    · cases reported
  · rintro ⟨zone, client, routes, -, reported, -⟩
    simp only [report, lastReport, new] at reported
    split at reported
    · cases reported
    · rename_i other
      rw [if_neg fun same => other same.2] at reported
      cases reported

end PeerLink.MagicDns
