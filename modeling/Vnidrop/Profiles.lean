import Vnidrop.SchemaScripts

/-! The database of a profile when it is opened. Every domain brings its own tables to the present
version, statement by statement on one connection; only the backfill of the deliveries is a transaction. -/
namespace Vnidrop.Profiles

open Programs Resumption Schemas

def createTable (name : String) (columns : List String) : Part := .statement (.createTable name columns)

def dropTable (name : String) : Part := .statement (.dropTable name)

def createIndex (name table : String) (columns : List String) : Part := .statement (.createIndex ⟨name,table,columns,none⟩)

def createUniqueIndex (name table : String) (columns : List String) (meets : Row → Bool) : Part :=
  .statement (.createIndex ⟨name,table,columns,some meets⟩)

def text (s : String) : Cell := .text s.toList

/-- Unreleased device-history prototype tables. -/
def prototypes : List String := ["held_offers","grants_held","grants_issued","contacts"]

namespace Repository

def SCHEMA_VERSION : Int := 13

/-- `'legacy-' || transfer_id || '-' || direction` -/
def legacyId : Expr := .concat (.concat (.concat (.text "legacy-") (.column "transfer_id")) (.text "-")) (.column "direction")

def ensureSchema : List Part := [
  createTable "transfers" ["transfer_id","local_id","protocol_transfer_id","peer_id","direction","status","transfer_name",
    "sender_name","content_hash","ticket","file_count","total_size","access_mode","created_at","updated_at"],
  .columns "transfers" [("sender_name",.null),("access_mode",text "approval_required"),("local_id",.null),
    ("protocol_transfer_id",.null),("peer_id",.null)],
  .statement (.fill "transfers" [("local_id",legacyId),("protocol_transfer_id",.column "transfer_id")]),
  createUniqueIndex "idx_transfers_local_id" "transfers" ["local_id"] fun _ => true,
  createTable "received_artifacts" ["id","transfer_local_id","protocol_transfer_id","relative_path","locator_kind","locator",
    "logical_size","published_at"],
  createTable "transfer_events" ["id","revision","timestamp","scope","transfer_id","direction","phase","kind","data_json"],
  .columns "transfer_events" [("revision",.int 0)],
  createIndex "idx_transfer_events_transfer_id" "transfer_events" ["transfer_id","timestamp"],
  createTable "receiver_requests" ["id","transfer_id","remote_endpoint_id","transfer_name","receiver_name",
    "receiver_device_name","app_version","status","reason","requested_at","responded_at","receipt_token_hash","completed_at"],
  .columns "receiver_requests" [("receipt_token_hash",.null),("completed_at",.null)],
  createIndex "idx_receiver_requests_transfer_id" "receiver_requests" ["transfer_id","requested_at"],
  createTable "pending_delivery_receipts" ["request_id","local_transfer_id","sender_blob_ticket","sender_transfer_id","token",
    "failure_reason","created_at"],
  .columns "pending_delivery_receipts" [("failure_reason",.null)],
  .statement (.userVersion SCHEMA_VERSION)]

end Repository

namespace BlockedDevices

def ensureSchema : List Part := [createTable "blocked_endpoints" ["endpoint_id","created_at"]]

end BlockedDevices

namespace SecureSecret

/-- `kind = 'endpoint-identity' AND state != 'disabled'` -/
def endpointIdentity (r : Row) : Bool :=
  r "kind" = text "endpoint-identity" && r "state" ≠ .null && r "state" ≠ text "disabled"

def ensureSchema : List Part := [
  createTable "protected_secret_refs" ["handle","kind","state","expected_identity","created_at","updated_at"],
  createUniqueIndex "protected_secret_one_endpoint_identity" "protected_secret_refs" ["kind"] endpointIdentity]

end SecureSecret

namespace DeviceRelationshipStore

def ensureSchema : List Part := [
  createTable "device_relationships" ["remote_endpoint_id","state","generation","minimum_protocol_version","session_id",
    "remote_display_name","last_authenticated_at","issued_grant_handle","held_grant_handle","issued_grant_id","held_grant_id",
    "peer_ack","local_ack","created_at","updated_at"],
  .columns "device_relationships" [("issued_grant_id",.null),("held_grant_id",.null),("local_label",.null),
    ("remote_display_name",.null),("last_authenticated_at",.null)],
  createTable "relationship_generation_tombstones" ["remote_endpoint_id","generation","issued_grant_id","held_grant_id",
    "revoked_at"]]

end DeviceRelationshipStore

namespace TargetedTransfer

/-- A row of a sender that holds an authorization for its receiver. -/
def awaitsDelivery (r : Row) : Bool :=
  r "role" = text "sender" && r "state" = text "approved" && r "blob_ticket" ≠ .null && r "authorization_secret_handle" ≠ .null

def backfill : Statement :=
  .insertFrom "targeted_authorization_delivery_outbox" "transfer_id"
    [("transfer_id",.column "id"),("created_at",.column "updated_at"),("next_attempt_at",.int 0)]
    "targeted_transfers" ["role","state","blob_ticket","authorization_secret_handle"] awaitsDelivery

def ensureSchema : List Part := [
  createTable "targeted_transfers" ["id","protocol_transfer_id","sender_endpoint_id","receiver_endpoint_id","manifest_id",
    "content_hash","transfer_name","file_count","total_size","verified_bytes","blob_ticket","authorization_secret_handle",
    "role","state","created_at","updated_at"],
  createTable "targeted_accepted_offer_intents" ["transfer_id","sender_endpoint_id","receiver_endpoint_id","manifest_id",
    "content_hash","transfer_name","file_count","total_size","protocol_version","accepted_at"],
  createTable "targeted_authorization_delivery_outbox" ["transfer_id","created_at","next_attempt_at"],
  createTable "targeted_completion_outbox" ["transfer_id","created_at","next_attempt_at"],
  .columns "targeted_completion_outbox" [("next_attempt_at",.int 0)],
  createTable "targeted_payload_release_outbox" ["transfer_id","created_at"],
  .columns "targeted_transfers" [("verified_bytes",.int 0),("blob_ticket",.null),("authorization_secret_handle",.null),
    ("role",text "sender")],
  createTable "targeted_schema_migrations" ["name","applied_at"],
  .once "targeted_schema_migrations" "name" "authorization-delivery-outbox-v1" "applied_at" [backfill]]

end TargetedTransfer

namespace PairingEligibilityStore

def ensureSchema : List Part := [
  createTable "pairing_eligibilities" ["session_id","peer_endpoint_id","remote_display_name","protocol_version",
    "secret_handle","created_at","expires_at"],
  .columns "pairing_eligibilities" [("remote_display_name",.null)],
  createIndex "pairing_eligibilities_peer" "pairing_eligibilities" ["peer_endpoint_id"]]

end PairingEligibilityStore

/-- `open_all`, after the file has been opened. -/
def openAll : List Part :=
  prototypes.map dropTable ++ Repository.ensureSchema ++ BlockedDevices.ensureSchema ++ SecureSecret.ensureSchema ++
    DeviceRelationshipStore.ensureSchema ++ TargetedTransfer.ensureSchema ++ PairingEligibilityStore.ensureSchema

/-- What opening a profile may do to what the database has already. -/
def licence : Licence where
  drops := prototypes
  fills := [("transfers","local_id"),("transfers","protocol_transfer_id")]
  grows := ["targeted_authorization_delivery_outbox","targeted_schema_migrations"]

theorem sound : ∀ p ∈ openAll, p.Sound := by decide +kernel

theorem spares : openAll.Pairwise fun p q => q.Spares p := by decide +kernel

theorem steady : Steady openAll := by decide +kernel

theorem covered : ∀ p ∈ openAll, p.Covered licence := by decide +kernel

theorem resumable : Resumable exec (script openAll) fun s => ∀ p ∈ openAll, p.Done s := resumable_script sound spares steady

section Opens

variable {s t u : Database}

/-- However often an open of the profile was cut off or has failed, the next one that succeeds makes of
the database what a single one would have made of it at first; and one can succeed if it could at first. -/
theorem open_resumes (cuts : Relation.ReflTransGen (Partly exec (script openAll)) s t) :
    (Alone exec (script openAll) t (.ok ()) u → Alone exec (script openAll) s (.ok ()) u) ∧
      (Alone exec (script openAll) s (.ok ()) u → ∃ v, Alone exec (script openAll) t (.ok ()) v) :=
  ⟨resumable.resumes cuts,resumable.retries cuts⟩

/-- The columns that the present version gives a table, and those of them that every version had. -/
def created (name : String) : Part → List String
  | .statement (.createTable other columns) => if other = name then columns else []
  | _ => []

def added (name : String) : Part → List String
  | .columns other adds => if other = name then adds.map Prod.fst else []
  | _ => []

def columnsOf (name : String) : List String := openAll.flatMap fun p => created name p ++ added name p

def baseOf (name : String) : List String := (openAll.flatMap (created name)).filter (· ∉ openAll.flatMap (added name))

def tableOf : Part → List String
  | .statement (.createTable name _) => [name]
  | _ => []

def tableNames : List String := openAll.flatMap tableOf

/-- A database of an earlier version: its tables have the columns that were not added later. -/
def Earlier (s : Database) : Prop := ∀ name a, s.tables name = some a → baseOf name ⊆ a.columns

/-- Every table of the present version, with all of its columns. -/
def Current (s : Database) : Prop := ∀ name ∈ tableNames, ∃ a, s.tables name = some a ∧ columnsOf name ⊆ a.columns

/-- A table that is created has the columns that are not added to it. -/
def whole : Part → Bool
  | .statement (.createTable name columns) => baseOf name ⊆ columns
  | .once _ _ _ _ statements => statements.all fun st => st.creates = none
  | _ => true

theorem whole_all : ∀ p ∈ openAll, whole p = true := by decide +kernel

theorem exec_earlier {st : Statement} (h : s.exec st = some t) (fits : ∀ name columns, st = .createTable name columns → baseOf name ⊆ columns)
    (earlier : Earlier s) : Earlier t := by
  intro name b there
  have put (other : String) (d : Table) (full : baseOf other ⊆ d.columns) (here : (s.put other d).tables name = some b) :
      baseOf name ⊆ b.columns := by
    by_cases same : name = other
    · subst same
      obtain rfl : d = b := by simpa [Database.put] using here
      exact full
    · exact earlier name b (by simpa [Database.put,same] using here)
  cases exec_effect h with
  | none | index | version => exact earlier name b there
  | create absent => exact put _ _ (fits _ _ rfl) there
  | drop dropped =>
    by_cases same : name = dropped
    · simp [same] at there
    · exact earlier name b (by simpa [same] using there)
  | add a here => exact put _ _ (fun c listed => List.mem_append_left _ (earlier _ a here listed)) there
  | fill a here | insert a here =>
    refine put _ _ ?_ there
    exact earlier _ a here

theorem part_earlier {p : Part} (fits : whole p = true) (run : Partly exec p.work s t) (earlier : Earlier s) : Earlier t := by
  refine part_keeps (P := Earlier) (fun st there s t h => exec_earlier h fun name columns same => ?_)
    (fun name _ s a b there within earlier other d here => ?_) run earlier
  · cases p with
    | statement st' =>
      obtain rfl := List.mem_singleton.mp there
      rw [same] at fits
      simpa [whole] using fits
    | columns other adds =>
      obtain ⟨d,-,rfl⟩ := List.mem_map.mp there
      cases same
    | once ledger key mark stamp statements =>
      simp only [whole,List.all_eq_true,decide_eq_true_eq] at fits
      have none := fits st there
      rw [same] at none
      cases none
  · by_cases same : other = name
    · subst same
      obtain ⟨d',here',extends'⟩ := within other a (by simp) there
      obtain rfl := Option.some.inj (here'.symm.trans here)
      exact fun c listed => extends'.columns.subset (earlier other a there listed)
    · exact earlier other d (by simpa [Database.put,same] using here)

theorem open_earlier (run : Partly exec (script openAll) s t) (earlier : Earlier s) : Earlier t := by
  refine partly_sequence (R := fun s t => Earlier s → Earlier t) (fun _ h => h) (fun _ _ _ f g h => g (f h))
    (fun w there s t run => ?_) run earlier
  obtain ⟨p,listed,rfl⟩ := List.mem_map.mp there
  exact part_earlier (whole_all p listed) run

theorem current_of_done (earlier : Earlier s) (done : ∀ p ∈ openAll, p.Done s) : Current s := by
  intro name listed
  obtain ⟨p,there,named⟩ := List.mem_flatMap.mp listed
  have present : s.tables name ≠ none := by
    unfold tableOf at named
    split at named
    · obtain rfl := List.mem_singleton.mp named
      exact done _ there
    · cases named
  obtain ⟨a,here⟩ := Option.ne_none_iff_exists'.mp present
  have lately : ∀ c ∈ openAll.flatMap (added name), c ∈ a.columns := by
    intro c named
    obtain ⟨q,there,adds⟩ := List.mem_flatMap.mp named
    unfold added at adds
    split at adds
    · split at adds
      · rename_i same
        subst same
        obtain ⟨d,listed,rfl⟩ := List.mem_map.mp adds
        obtain ⟨b,here',known⟩ := done _ there
        obtain rfl := Option.some.inj (here.symm.trans here')
        exact known d listed
      · cases adds
    · cases adds
  refine ⟨a,here,fun c listed => ?_⟩
  obtain ⟨q,there,listed⟩ := List.mem_flatMap.mp listed
  rcases List.mem_append.mp listed with first | later
  · by_cases known : c ∈ openAll.flatMap (added name)
    · exact lately c known
    · exact earlier name a here (List.mem_filter.mpr ⟨List.mem_flatMap.mpr ⟨q,there,first⟩,by simpa using known⟩)
  · exact lately c (List.mem_flatMap.mpr ⟨q,there,later⟩)

/-- What the core does to the database of an open profile: it changes rows. It deletes no entry of the
migrations, and no transfer comes to be without its ids. -/
structure Writes (s t : Database) : Prop where
  tables : ∀ name, (t.tables name).map (·.columns) = (s.tables name).map (·.columns)
  indexes : t.indexes = s.indexes
  version : t.version = s.version
  transfers : ∀ a, t.tables "transfers" = some a → ∀ r ∈ a.rows, r "local_id" ≠ .null ∧ r "protocol_transfer_id" ≠ .null
  migrations : ∀ a b, s.tables "targeted_schema_migrations" = some a → t.tables "targeted_schema_migrations" = some b →
    ∀ r ∈ a.rows, r ∈ b.rows

/-- The only columns that are filled, and the only ledger. -/
def usual : Part → Bool
  | .statement (.fill name fillings) => name = "transfers" && fillings.all fun f => f.1 = "local_id" || f.1 = "protocol_transfer_id"
  | .once ledger .. => ledger = "targeted_schema_migrations"
  | _ => true

theorem usual_all : ∀ p ∈ openAll, usual p = true := by decide +kernel

theorem Writes.table {name : String} {a : Table} (writes : Writes s t) (there : s.tables name = some a) :
    ∃ b, t.tables name = some b ∧ b.columns = a.columns := by
  have same := writes.tables name
  rw [there,Option.map_some] at same
  exact Option.map_eq_some_iff.mp same

theorem Writes.done {p : Part} (writes : Writes s t) (which : usual p = true) (done : p.Done s) : p.Done t := by
  cases p with
  | columns name adds =>
    obtain ⟨a,there,known⟩ := done
    obtain ⟨b,here,same⟩ := writes.table there
    exact ⟨b,here,fun d listed => same ▸ known d listed⟩
  | once ledger key name stamp statements =>
    obtain rfl : ledger = "targeted_schema_migrations" := by simpa [usual] using which
    obtain ⟨a,there,known,r,listed,marked⟩ := done
    obtain ⟨b,here,same⟩ := writes.table there
    exact ⟨b,here,same ▸ known,r,writes.migrations a b there here r listed,marked⟩
  | statement st =>
    cases st with
    | createTable name columns =>
      obtain ⟨a,there⟩ := Option.ne_none_iff_exists'.mp done
      obtain ⟨b,here,-⟩ := writes.table there
      simp [Part.Done,here]
    | dropTable name =>
      have absent : s.tables name = none := done
      have same := writes.tables name
      rw [absent,Option.map_none,Option.map_eq_none_iff] at same
      exact same
    | fill name fillings =>
      simp only [usual,Bool.and_eq_true,decide_eq_true_eq,List.all_eq_true,Bool.or_eq_true] at which
      obtain ⟨rfl,which⟩ := which
      obtain ⟨a,there,named,readable,-⟩ := done
      obtain ⟨b,here,same⟩ := writes.table there
      refine ⟨b,here,fun f listed => same ▸ named f listed,fun f listed c read => same ▸ readable f listed c read,
        fun r listed f there => ?_⟩
      have full := writes.transfers b here r listed
      have value : r f.1 ≠ .null := by
        rcases which f there with same | same <;> rw [same]
        · exact full.1
        · exact full.2
      unfold fillRow
      split
      · exact if_neg value
      · rfl
    | createIndex i =>
      obtain ⟨j,listed,same⟩ := done
      exact ⟨j,writes.indexes ▸ listed,same⟩
    | userVersion n => exact writes.version.trans done
    | addColumn | insertFrom => exact done.elim

theorem Writes.earlier (writes : Writes s t) (earlier : Earlier s) : Earlier t := by
  intro name b here
  have same := writes.tables name
  rw [here,Option.map_some] at same
  obtain ⟨a,there,columns⟩ := Option.map_eq_some_iff.mp same.symm
  exact columns ▸ earlier name a there

/-- The core writes, or a process opens the profile and is perhaps cut off. -/
def Goes (s t : Database) : Prop := Writes s t ∨ Partly exec (script openAll) s t

/-- Once the profile of an earlier version has been opened every table has all of its columns, and
whatever is written and however often it is opened, no later open changes anything: the backfill is done once. -/
theorem opened_current (earlier : Earlier s) (first : Alone exec (script openAll) s (.ok ()) t)
    (life : Relation.ReflTransGen Goes t u) : Current u ∧ ∀ v, Partly exec (script openAll) u v → v = u := by
  suffices kept : Earlier u ∧ ∀ p ∈ openAll, p.Done u from
    ⟨current_of_done kept.1 kept.2,fun v run => resumable.idle kept.2 run⟩
  induction life with
  | refl => exact ⟨open_earlier (partly_of_alone first) earlier,resumable.done first⟩
  | tail _ goes before =>
    rcases goes with writes | run
    · exact ⟨writes.earlier before.1,fun p there => writes.done (usual_all p there) (before.2 p there)⟩
    · rw [resumable.idle before.2 run]
      exact before

end Opens

namespace Sample

def row (cells : List (String × Cell)) : Row := fun c => (cells.lookup c).getD .null

/-- A table with the rows that fit its columns. -/
def table (columns : List String) (rows : List (List Cell)) : Table where
  columns := columns
  rows := rows.map fun cells => row (columns.zip cells)
  blank r there c absent := by
    obtain ⟨cells,-,rfl⟩ := List.mem_map.mp there
    have free : (columns.zip cells).lookup c = none := by
      simp only [List.lookup_eq_none_iff,bne_iff_ne]
      rintro f listed rfl
      exact absent (List.of_mem_zip listed).1
    simp [row,free]

/-- A profile of the first version, with one transfer and one prototype table. -/
def first : Database where
  tables name :=
    if name = "transfers" then
      some (table ["transfer_id","direction","status","transfer_name","content_hash","ticket","file_count","total_size",
        "created_at","updated_at"] [[.int 7,text "send",text "done",.null,.null,.null,.int 1,.int 4,.int 0,.int 0]])
    else if name = "contacts" then some (table ["endpoint_id"] [])
    else none
  indexes := []
  version := 1

/-- The operation with this number fails. -/
def course (failing n : Nat) : Choice := ⟨n = failing,false,0⟩

def localIds (s : Database) : Option (List Cell) := (s.tables "transfers").map fun a => a.rows.map (· "local_id")

theorem earlier : Earlier first := by
  intro name a there
  simp only [first] at there
  split at there
  · rename_i same
    obtain rfl := Option.some.inj there
    rw [same]
    decide +kernel
  · split at there
    · rename_i same
      have none : baseOf "contacts" = [] := by decide +kernel
      rw [same,none]
      exact List.nil_subset _
    · cases there

theorem failed : ∃ s, Alone exec (script openAll) first (.error .operation) s ∧ localIds s = some [.null] ∧
    ∃ t, Alone exec (script openAll) s (.ok ()) t ∧ localIds t = some [text "legacy-7-send"] := by
  have ran : (play exec (course 9) (script openAll) first 0).map (fun x => (x.1,localIds x.2)) =
      some (.error .operation,some [.null]) := by decide +kernel
  have again : ((play exec (course 9) (script openAll) first 0).bind fun x => play exec (course 99) (script openAll) x.2 0).map
      (fun x => (x.1,localIds x.2)) = some (.ok (),some [text "legacy-7-send"]) := by decide +kernel
  obtain ⟨⟨r,s⟩,run,same⟩ := Option.map_eq_some_iff.mp ran
  obtain ⟨rfl,ids⟩ := Prod.mk.inj same
  rw [run,Option.bind_some] at again
  obtain ⟨⟨r,t⟩,rerun,same⟩ := Option.map_eq_some_iff.mp again
  obtain ⟨rfl,ids'⟩ := Prod.mk.inj same
  exact ⟨s,alone_of_play run,ids,t,alone_of_play rerun,ids'⟩

end Sample

open Sample in
theorem failed_resumes : ∃ s t, localIds s = some [.null] ∧ localIds t = some [text "legacy-7-send"] ∧
    Alone exec (script openAll) first (.ok ()) t := by
  obtain ⟨s,cut,ids,t,run,ids'⟩ := failed
  exact ⟨s,t,ids,ids',(open_resumes (.single (partly_of_alone cut))).1 run⟩

open Sample in
theorem failed_current : ∃ t, localIds t = some [text "legacy-7-send"] ∧ Current t ∧
    ∀ v, Partly exec (script openAll) t v → v = t := by
  obtain ⟨s,cut,-,t,run,ids⟩ := failed
  exact ⟨t,ids,opened_current (open_earlier (partly_of_alone cut) earlier) run .refl⟩

end Vnidrop.Profiles
