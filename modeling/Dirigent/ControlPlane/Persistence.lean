import Dirigent.ControlPlane.Actions

/-!
# The persistence layer

`RedisClient` keeps the records of data planes, workers and services in one key space, told apart
by the prefix of the key, and reads them back by scanning for a prefix. `StoreEndpoint` writes its
JSON under the prefix of the workers, where the next reader takes it for a worker.

**The store.** A map from keys to bytes. A record is written under the only field that is used,
`data`. A scan returns each key with the prefix once, in any order.

**The encodings.** Bytes are any type, and of protobuf only that `Unmarshal` inverts `Marshal` is
known (`Codec`). What `Unmarshal` makes of foreign bytes is left open.

**Theorem (`readsBack_iff`).** The readers return the records that were stored last and not deleted
since, each once, whatever the encodings are, exactly if every `StoreEndpoint` is followed by a
`StoreWorkerNodeInformation` or `DeleteWorkerNodeInformation` of the same name.
-/

namespace Dirigent.ControlPlane

/-! ## Keys -/

inductive Kind
  | dataPlane | worker | service
  deriving DecidableEq, Repr

/-- `dataplanePrefix`, `workerPrefix`, `servicePrefix` -/
def Kind.head : Kind → String
  | .dataPlane => "dataplane"
  | .worker => "worker"
  | .service => "service"

/-- The key of the record of a kind with a name. -/
def key (kind : Kind) (name : String) : String := kind.head ++ ":" ++ name

theorem toList_key (kind : Kind) (name : String) :
    (key kind name).toList = kind.head.toList ++ ':' :: name.toList := by
  simp [key, String.toList_append]

theorem isPrefixOf_key (kind kind' : Kind) (name : String) :
    kind.head.toList.isPrefixOf (key kind' name).toList = decide (kind = kind') := by
  rw [toList_key]
  cases kind <;> cases kind' <;> rfl

theorem key_inj {kind kind' : Kind} {name name' : String} :
    key kind name = key kind' name' ↔ kind = kind' ∧ name = name' := by
  refine ⟨fun h => ?_, fun h => by rw [h.1, h.2]⟩
  have hkind : kind = kind' := by
    have hpre := isPrefixOf_key kind kind name
    rw [h, isPrefixOf_key] at hpre
    simpa using hpre
  subst hkind
  have hlist := congrArg String.toList h
  rw [toList_key, toList_key, List.append_cancel_left_eq, List.cons.injEq] at hlist
  exact ⟨rfl, String.toList_inj.1 hlist.2⟩

theorem key_ne_data (kind : Kind) (name : String) : key kind name ≠ "data" := by
  intro h
  have hlist := congrArg String.toList h
  rw [toList_key] at hlist
  cases kind <;> simp [Kind.head] at hlist

/-! ## The store -/

abbrev Redis (B : Type) := AList fun _ : String => B

namespace Redis

variable {B : Type}

/-- `HSET key data bytes` -/
def hset (s : Redis B) (k : String) (data : B) : Redis B := s.insert k data

/-- `DEL keys` -/
def del (s : Redis B) (ks : List String) : Redis B := ks.foldl (fun s k => s.erase k) s

/-- The keys that `ScanKeys` looks for. -/
def scanKeys (s : Redis B) (kind : Kind) : List String :=
  s.keys.filter fun k => kind.head.toList.isPrefixOf k.toList

end Redis

/-- `Marshal` and `Unmarshal` of one type of message. -/
structure Codec (B α : Type) where
  marshal : α → B
  unmarshal : B → Option α
  unmarshal_marshal : ∀ x, unmarshal (marshal x) = some x

/-- The encodings in use: protobuf for the records, JSON for endpoints. -/
structure Codecs (B : Type) where
  dataPlane : Codec B DataplaneInfo
  worker : Codec B NodeInfo
  service : Codec B ServiceInfo
  json : Endpoint → B

/-- The calls that write. -/
inductive Query
  | storeDataPlaneInformation (info : DataplaneInfo)
  | deleteDataPlaneInformation (ip : String)
  | storeWorkerNodeInformation (info : NodeInfo)
  | deleteWorkerNodeInformation (name : String)
  | storeServiceInformation (info : ServiceInfo)
  | deleteServiceInformation (name : String)
  | storeEndpoint (e : Endpoint)
  deriving DecidableEq, Repr

variable {B α : Type}

/-- What a call that succeeds does to the store. -/
def Query.apply (K : Codecs B) (s : Redis B) : Query → Redis B
  | .storeDataPlaneInformation info => s.hset (key .dataPlane info.ip) (K.dataPlane.marshal info)
  | .deleteDataPlaneInformation ip => s.del [key .dataPlane ip]
  | .storeWorkerNodeInformation info => s.hset (key .worker info.nodeID) (K.worker.marshal info)
  | .deleteWorkerNodeInformation name => s.del [key .worker name, "data"]
  | .storeServiceInformation info => s.hset (key .service info.name) (K.service.marshal info)
  | .deleteServiceInformation name => s.del [key .service name, "data"]
  | .storeEndpoint e => s.hset (key .worker e.sandboxID) (K.json e)

/-- The loop of the three readers over the keys that were found; `none` is the panic where
`Unmarshal` fails. -/
def readAll (c : Codec B α) (s : Redis B) (keys : List String) : Option (List α) :=
  keys.mapM fun k => (s.lookup k).bind c.unmarshal

/-! ## What should be read -/

/-- A map per kind of record. -/
structure Registry where
  dataPlanes : AList fun _ : String => DataplaneInfo := ∅
  workers : AList fun _ : String => NodeInfo := ∅
  services : AList fun _ : String => ServiceInfo := ∅

def Query.record (r : Registry) : Query → Registry
  | .storeDataPlaneInformation info => { r with dataPlanes := r.dataPlanes.insert info.ip info }
  | .deleteDataPlaneInformation ip => { r with dataPlanes := r.dataPlanes.erase ip }
  | .storeWorkerNodeInformation info => { r with workers := r.workers.insert info.nodeID info }
  | .deleteWorkerNodeInformation name => { r with workers := r.workers.erase name }
  | .storeServiceInformation info => { r with services := r.services.insert info.name info }
  | .deleteServiceInformation name => { r with services := r.services.erase name }
  | .storeEndpoint _ => r

def records (m : AList fun _ : String => α) : List α := m.entries.map Sigma.snd

/-- The reader of a kind returns the records `m`, each once, in whatever order it finds the keys. -/
def ReadsKind (c : Codec B α) (s : Redis B) (kind : Kind) (m : AList fun _ : String => α) : Prop :=
  ∀ keys, keys.Perm (s.scanKeys kind) → ∃ xs, readAll c s keys = some xs ∧ xs.Perm (records m)

/-- After the calls `qs` the three readers do not panic and return what was stored last. -/
def ReadsBack (K : Codecs B) (qs : List Query) : Prop :=
  let s := qs.foldl (Query.apply K) ∅
  let r := qs.foldl Query.record {}
  ReadsKind K.dataPlane s .dataPlane r.dataPlanes ∧ ReadsKind K.worker s .worker r.workers ∧
    ReadsKind K.service s .service r.services

/-- The call stores or deletes the worker `name`. -/
def Query.replacesWorker (name : String) : Query → Bool
  | .storeWorkerNodeInformation info => info.nodeID = name
  | .deleteWorkerNodeInformation name' => name' = name
  | _ => false

/-- Every `StoreEndpoint` is followed by a call that stores or deletes the worker of that name. -/
def EndpointsGone : List Query → Prop
  | [] => True
  | .storeEndpoint e :: qs => (∃ q ∈ qs, q.replacesWorker e.sandboxID = true) ∧ EndpointsGone qs
  | _ :: qs => EndpointsGone qs

/-! ## The records of the control plane's state -/

/-- The call as an action of the control plane. -/
def Query.act : Query → Act
  | .storeDataPlaneInformation info => .storeDataPlaneInformation info
  | .deleteDataPlaneInformation ip => .deleteDataPlaneInformation ip
  | .storeWorkerNodeInformation info => .storeWorkerNodeInformation info
  | .deleteWorkerNodeInformation name => .deleteWorkerNodeInformation name
  | .storeServiceInformation info => .storeServiceInformation info
  | .deleteServiceInformation name => .deleteServiceInformation name
  | .storeEndpoint e => .storeEndpoint e

def State.registry (s : State) : Registry := ⟨s.storedDataPlanes, s.storedWorkers, s.storedServices⟩

/-- The state of the control plane keeps the records as a registry does. -/
theorem registry_exec (q : Query) (s : State) {c : Choice} (hc : c.takesEffect = true) :
    (exec q.act s c).map (fun r => r.2.registry) = some (q.record s.registry) := by
  cases q <;> simp [exec, Query.act, hc, State.registry, Query.record]

/-! ## Reading one kind -/

theorem mapM_of_isSome {β γ : Type} {f : β → Option γ} {l : List β}
    (h : ∀ x ∈ l, (f x).isSome = true) : l.mapM f = some (l.filterMap f) := by
  induction l with
  | nil => rfl
  | cons x l ih =>
    obtain ⟨y, hy⟩ := Option.isSome_iff_exists.1 (h x List.mem_cons_self)
    have hl := ih fun z hz => h z (List.mem_cons_of_mem _ hz)
    simp [List.mapM_cons, hy, hl]

/-- Every key is the key of a record. -/
def KeysOfRecords (s : Redis B) : Prop := ∀ x ∈ s, ∃ kind name, x = key kind name

variable {s : Redis B} {kind : Kind} {x name : String} {c : Codec B α} {K : Codecs B} {r : Registry}
  {pending : String → Prop} {qs : List Query}

theorem mem_scanKeys (hkeys : KeysOfRecords s) :
    x ∈ s.scanKeys kind ↔ ∃ name, key kind name ∈ s ∧ x = key kind name := by
  simp only [Redis.scanKeys, List.mem_filter, AList.mem_keys.symm]
  constructor
  · rintro ⟨hx, hpre⟩
    obtain ⟨kind', name, rfl⟩ := hkeys x hx
    rw [isPrefixOf_key] at hpre
    obtain rfl : kind = kind' := of_decide_eq_true hpre
    exact ⟨name, hx, rfl⟩
  · rintro ⟨name, hx, rfl⟩
    exact ⟨hx, by rw [isPrefixOf_key]; exact decide_eq_true rfl⟩

/-- **A kind whose keys hold the records `m` is read back.** -/
theorem readsKind_of_lookup {m : AList fun _ : String => α} (hkeys : KeysOfRecords s)
    (hlookup : ∀ name, s.lookup (key kind name) = (m.lookup name).map c.marshal) :
    ReadsKind c s kind m := by
  intro keys hperm
  -- the keys that are found are those of the records
  have hfound : (s.scanKeys kind).Perm (m.entries.map fun r => key kind r.1) := by
    have hnodup : (s.scanKeys kind).Nodup := s.nodupKeys.filter _
    refine (List.perm_ext_iff_of_nodup hnodup ?_).2 fun x => ?_
    · have hmap : (m.entries.map fun r => key kind r.1) = m.keys.map (key kind) := by
        simp [AList.keys, List.keys]
      rw [hmap]
      exact (m.nodupKeys).map fun a b hab => (key_inj.1 hab).2
    · rw [mem_scanKeys hkeys, List.mem_map]
      constructor
      · rintro ⟨name, hx, rfl⟩
        have hsome : (m.lookup name).isSome = true := by
          have := AList.lookup_isSome.2 hx
          rwa [hlookup, Option.isSome_map] at this
        obtain ⟨v, hv⟩ := Option.isSome_iff_exists.1 hsome
        exact ⟨⟨name, v⟩, AList.mem_lookup_iff.1 hv, rfl⟩
      · rintro ⟨⟨name, v⟩, hr, rfl⟩
        have hv : m.lookup name = some v := AList.mem_lookup_iff.2 hr
        refine ⟨name, AList.lookup_isSome.1 ?_, rfl⟩
        rw [hlookup, hv]
        rfl
  have hread : ∀ r ∈ m.entries, (s.lookup (key kind r.1)).bind c.unmarshal = some r.2 := by
    intro r hr
    have hv : m.lookup r.1 = some r.2 := AList.mem_lookup_iff.2 hr
    rw [hlookup, hv]
    exact c.unmarshal_marshal r.2
  have hall := hperm.trans hfound
  refine ⟨_, mapM_of_isSome fun x hx => ?_, ?_⟩
  · obtain ⟨r, hr, rfl⟩ := List.mem_map.1 (hall.mem_iff.1 hx)
    rw [hread r hr]
    rfl
  · refine (hall.filterMap _).trans (List.Perm.of_eq ?_)
    rw [List.filterMap_map, records, ← List.filterMap_eq_map]
    exact List.filterMap_congr fun r hr => hread r hr

/-! ## What a call does -/

/-- The record that a call writes, or the one it removes. -/
def Query.write (K : Codecs B) : Query → Kind × String × Option B
  | .storeDataPlaneInformation info => (.dataPlane, info.ip, some (K.dataPlane.marshal info))
  | .deleteDataPlaneInformation ip => (.dataPlane, ip, none)
  | .storeWorkerNodeInformation info => (.worker, info.nodeID, some (K.worker.marshal info))
  | .deleteWorkerNodeInformation name => (.worker, name, none)
  | .storeServiceInformation info => (.service, info.name, some (K.service.marshal info))
  | .deleteServiceInformation name => (.service, name, none)
  | .storeEndpoint e => (.worker, e.sandboxID, some (K.json e))

theorem lookup_hset (s : Redis B) (kind kind' : Kind) (name name' : String) (b : B) :
    (s.hset (key kind name) b).lookup (key kind' name') =
      if kind = kind' ∧ name = name' then some b else s.lookup (key kind' name') := by
  unfold Redis.hset
  by_cases h : kind = kind' ∧ name = name'
  · rw [if_pos h, h.1, h.2, AList.lookup_insert]
  · rw [if_neg h, AList.lookup_insert_ne]
    exact fun heq => h (key_inj.1 heq.symm)

theorem lookup_erase_key (s : Redis B) (kind kind' : Kind) (name name' : String) :
    (s.erase (key kind name)).lookup (key kind' name') =
      if kind = kind' ∧ name = name' then none else s.lookup (key kind' name') := by
  by_cases h : kind = kind' ∧ name = name'
  · rw [if_pos h, h.1, h.2, AList.lookup_erase]
  · rw [if_neg h, AList.lookup_erase_ne]
    exact fun heq => h (key_inj.1 heq.symm)

/-- **What a call does to the key of a record.** -/
theorem lookup_apply (K : Codecs B) (s : Redis B) (q : Query) (kind : Kind) (name : String) :
    (q.apply K s).lookup (key kind name) =
      if (q.write K).1 = kind ∧ (q.write K).2.1 = name then (q.write K).2.2
      else s.lookup (key kind name) := by
  cases q with
  | storeDataPlaneInformation info | storeWorkerNodeInformation info
  | storeServiceInformation info | storeEndpoint e => exact lookup_hset ..
  | deleteDataPlaneInformation ip => exact lookup_erase_key ..
  | deleteWorkerNodeInformation name' | deleteServiceInformation name' =>
    exact (AList.lookup_erase_ne (key_ne_data kind name)).trans (lookup_erase_key ..)

theorem mem_of_mem_del (ks : List String) (h : x ∈ s.del ks) :
    x ∈ s := by
  induction ks generalizing s with
  | nil => exact h
  | cons k ks ih => exact ((AList.mem_erase).1 (ih h)).2

theorem KeysOfRecords.hset (h : KeysOfRecords s) (kind : Kind) (name : String) (b : B) :
    KeysOfRecords (s.hset (key kind name) b) := by
  intro x hx
  rcases (AList.mem_insert s).1 hx with rfl | hx
  · exact ⟨kind, name, rfl⟩
  · exact h x hx

theorem KeysOfRecords.del (h : KeysOfRecords s) (ks : List String) :
    KeysOfRecords (s.del ks) := fun x hx => h x (mem_of_mem_del ks hx)

theorem KeysOfRecords.apply (h : KeysOfRecords s) (q : Query) :
    KeysOfRecords (q.apply K s) := by
  cases q with
  | storeDataPlaneInformation info | storeWorkerNodeInformation info
  | storeServiceInformation info | storeEndpoint e => exact h.hset _ _ _
  | deleteDataPlaneInformation ip | deleteWorkerNodeInformation name
  | deleteServiceInformation name => exact h.del _

/-! ## Runs of calls -/

theorem lookup_insert_ite (m : AList fun _ : String => α) (a n : String) (v : α) :
    (m.insert a v).lookup n = if a = n then some v else m.lookup n := by
  by_cases h : a = n
  · rw [if_pos h, h, AList.lookup_insert]
  · rw [if_neg h, AList.lookup_insert_ne (Ne.symm h)]

theorem lookup_erase_ite (m : AList fun _ : String => α) (a n : String) :
    (m.erase a).lookup n = if a = n then none else m.lookup n := by
  by_cases h : a = n
  · rw [if_pos h, h, AList.lookup_erase]
  · rw [if_neg h, AList.lookup_erase_ne (Ne.symm h)]

/-- The store holds the records of the registry, except for workers in `pending`, whose keys hold
an endpoint. -/
structure Agrees (K : Codecs B) (s : Redis B) (r : Registry) (pending : String → Prop) : Prop where
  keys : KeysOfRecords s
  dataPlane : ∀ name, s.lookup (key .dataPlane name) =
    (r.dataPlanes.lookup name).map K.dataPlane.marshal
  service : ∀ name, s.lookup (key .service name) =
    (r.services.lookup name).map K.service.marshal
  worker : ∀ name, ¬ pending name → s.lookup (key .worker name) =
    (r.workers.lookup name).map K.worker.marshal

/-- The workers whose key holds an endpoint after the call. -/
def Query.pendingAfter (pending : String → Prop) (q : Query) (name : String) : Prop :=
  match q with
  | .storeEndpoint e => e.sandboxID = name ∨ pending name
  | q => pending name ∧ q.replacesWorker name = false

theorem Agrees.apply (h : Agrees K s r pending) (q : Query) :
    Agrees K (q.apply K s) (q.record r) (q.pendingAfter pending) := by
  refine ⟨h.keys.apply q, fun name => ?_, fun name => ?_, fun name hname => ?_⟩
  · rw [lookup_apply, h.dataPlane name]
    cases q with
    | storeDataPlaneInformation info =>
      simp only [Query.write, Query.record, lookup_insert_ite, true_and]
      split_ifs <;> rfl
    | deleteDataPlaneInformation ip =>
      simp only [Query.write, Query.record, lookup_erase_ite, true_and]
      split_ifs <;> rfl
    | _ => rfl
  · rw [lookup_apply, h.service name]
    cases q with
    | storeServiceInformation info =>
      simp only [Query.write, Query.record, lookup_insert_ite, true_and]
      split_ifs <;> rfl
    | deleteServiceInformation name' =>
      simp only [Query.write, Query.record, lookup_erase_ite, true_and]
      split_ifs <;> rfl
    | _ => rfl
  · rw [lookup_apply]
    cases q with
    | storeWorkerNodeInformation info =>
      simp only [Query.write, Query.record, lookup_insert_ite, true_and]
      split_ifs with heq
      · rfl
      · exact h.worker name fun hp => hname ⟨hp, decide_eq_false heq⟩
    | deleteWorkerNodeInformation name' =>
      simp only [Query.write, Query.record, lookup_erase_ite, true_and]
      split_ifs with heq
      · rfl
      · exact h.worker name fun hp => hname ⟨hp, decide_eq_false heq⟩
    | storeEndpoint e =>
      rw [if_neg fun heq => hname (.inl heq.2)]
      exact h.worker name fun hp => hname (.inr hp)
    | _ => exact h.worker name fun hp => hname ⟨hp, rfl⟩

/-- A call that is not `StoreEndpoint` leaves as pending what it does not replace. -/
theorem exists_replaces {q : Query} (hq : EndpointsGone (q :: qs))
    (hp : ∀ name, pending name → ∃ q' ∈ q :: qs, q'.replacesWorker name = true) :
    EndpointsGone qs ∧
      ∀ name, q.pendingAfter pending name → ∃ q' ∈ qs, q'.replacesWorker name = true := by
  have htail : ∀ name, pending name → q.replacesWorker name = false →
      ∃ q' ∈ qs, q'.replacesWorker name = true := by
    intro name hname hno
    obtain ⟨q', hmem, hrep⟩ := hp name hname
    rcases List.mem_cons.1 hmem with rfl | hmem
    · simp [hno] at hrep
    · exact ⟨q', hmem, hrep⟩
  cases q with
  | storeEndpoint e =>
    refine ⟨hq.2, fun name hname => ?_⟩
    rcases hname with rfl | hname
    · exact hq.1
    · exact htail name hname rfl
  | _ => exact ⟨hq, fun name hname => htail name hname.1 hname.2⟩

/-- **A run of calls** after which no endpoint is left leaves the records of the registry. -/
theorem Agrees.foldl (h : Agrees K s r pending) (hq : EndpointsGone qs)
    (hp : ∀ name, pending name → ∃ q ∈ qs, q.replacesWorker name = true) :
    Agrees K (qs.foldl (Query.apply K) s) (qs.foldl Query.record r) fun _ => False := by
  induction qs generalizing s r pending with
  | nil =>
    refine ⟨h.keys, h.dataPlane, h.service, fun name _ => h.worker name fun hname => ?_⟩
    obtain ⟨q, hmem, -⟩ := hp name hname
    exact List.not_mem_nil hmem
  | cons q qs ih =>
    obtain ⟨htail, hpending⟩ := exists_replaces hq hp
    exact ih (h.apply q) htail hpending

theorem agrees_empty (K : Codecs B) : Agrees K ∅ {} fun _ => False where
  keys x hx := absurd hx (AList.notMem_empty x)
  dataPlane _ := rfl
  service _ := rfl
  worker _ _ := rfl

theorem readsBack_of_endpointsGone (K : Codecs B) (hq : EndpointsGone qs) :
    ReadsBack K qs := by
  have h := (agrees_empty K).foldl hq fun _ hname => hname.elim
  exact ⟨readsKind_of_lookup h.keys h.dataPlane,
    readsKind_of_lookup h.keys fun name => h.worker name not_false,
    readsKind_of_lookup h.keys h.service⟩

/-! ## An endpoint that is left -/

/-- An endpoint under the key of a worker stays until the worker is stored or deleted. -/
theorem exists_json_of_foldl {e : Endpoint} (hs : s.lookup (key .worker name) = some (K.json e))
    (hq : ∀ q ∈ qs, q.replacesWorker name = false) :
    ∃ e', (qs.foldl (Query.apply K) s).lookup (key .worker name) = some (K.json e') := by
  induction qs generalizing s e with
  | nil => exact ⟨e, hs⟩
  | cons q qs ih =>
    have hrest : ∀ q' ∈ qs, q'.replacesWorker name = false :=
      fun q' hq' => hq q' (List.mem_cons_of_mem _ hq')
    have hhead := hq q List.mem_cons_self
    have hnext : ∃ e', (q.apply K s).lookup (key .worker name) = some (K.json e') := by
      rw [lookup_apply, hs]
      cases q with
      | storeEndpoint e' =>
        by_cases heq : e'.sandboxID = name
        · exact ⟨e', if_pos ⟨rfl, heq⟩⟩
        · exact ⟨e, if_neg fun h => heq h.2⟩
      | storeWorkerNodeInformation info | deleteWorkerNodeInformation name' =>
        exact ⟨e, if_neg fun h => of_decide_eq_false hhead h.2⟩
      | _ => exact ⟨e, rfl⟩
    obtain ⟨e', he'⟩ := hnext
    exact ih he' hrest

theorem exists_json_of_not_endpointsGone (K : Codecs B) (s : Redis B) (hq : ¬ EndpointsGone qs) :
    ∃ name e, (qs.foldl (Query.apply K) s).lookup (key .worker name) = some (K.json e) := by
  induction qs generalizing s with
  | nil => exact absurd trivial hq
  | cons q qs ih =>
    by_cases htail : EndpointsGone qs
    · cases q with
      | storeEndpoint e =>
        have hno : ∀ q ∈ qs, q.replacesWorker e.sandboxID = false := by
          intro q hmem
          by_contra hrep
          exact hq ⟨⟨q, hmem, by simpa using hrep⟩, htail⟩
        have hstored : ((Query.storeEndpoint e).apply K s).lookup (key .worker e.sandboxID) =
            some (K.json e) := by
          rw [lookup_apply]
          exact if_pos ⟨rfl, rfl⟩
        rw [List.foldl_cons]
        exact ⟨e.sandboxID, exists_json_of_foldl hstored hno⟩
      | _ => exact absurd htail hq
    · exact ih (q.apply K s) htail

/-- Encodings in which no bytes of one kind can be taken for another. -/
inductive Tagged
  | dataPlane (info : DataplaneInfo)
  | worker (info : NodeInfo)
  | service (info : ServiceInfo)
  | json (e : Endpoint)

def tagged : Codecs Tagged where
  dataPlane := ⟨.dataPlane, fun | .dataPlane info => some info | _ => none, fun _ => rfl⟩
  worker := ⟨.worker, fun | .worker info => some info | _ => none, fun _ => rfl⟩
  service := ⟨.service, fun | .service info => some info | _ => none, fun _ => rfl⟩
  json := .json

/-- A reader that meets bytes it cannot decode panics. -/
theorem readAll_eq_none {keys : List String} (hx : x ∈ keys)
    (hnone : (s.lookup x).bind c.unmarshal = none) : readAll c s keys = none := by
  unfold readAll
  induction keys with
  | nil => exact absurd hx List.not_mem_nil
  | cons k keys ih =>
    rw [List.mapM_cons]
    rcases List.mem_cons.1 hx with rfl | hx
    · rw [hnone]
      rfl
    · rw [ih hx]
      cases (s.lookup k).bind c.unmarshal <;> rfl

theorem mem_scanKeys_of_lookup {b : B} (h : s.lookup (key kind name) = some b) :
    key kind name ∈ s.scanKeys kind := by
  have hmem : key kind name ∈ s := AList.lookup_isSome.1 (by rw [h]; rfl)
  refine List.mem_filter.2 ⟨AList.mem_keys.1 hmem, ?_⟩
  rw [isPrefixOf_key]
  exact decide_eq_true rfl

/-- **Persistence as a map.** The calls read back what was stored last, for all encodings in which
`Unmarshal` inverts `Marshal`, exactly if every `StoreEndpoint` among them is followed by a call
that stores or deletes the worker of that name. -/
theorem readsBack_iff (qs : List Query) :
    (∀ (B : Type) (K : Codecs B), ReadsBack K qs) ↔ EndpointsGone qs := by
  refine ⟨fun h => ?_, fun hq B K => readsBack_of_endpointsGone K hq⟩
  by_contra hq
  obtain ⟨name, e, hjson⟩ := exists_json_of_not_endpointsGone tagged ∅ hq
  obtain ⟨-, hworker, -⟩ := h Tagged tagged
  obtain ⟨xs, hread, -⟩ := hworker _ (.refl _)
  rw [readAll_eq_none (mem_scanKeys_of_lookup hjson) (by rw [hjson]; rfl)] at hread
  cases hread

/-- One endpoint and nothing else: in every encoding the reader of workers panics, or returns a
worker that was never stored. -/
theorem not_readsBack_storeEndpoint (K : Codecs B) (e : Endpoint) :
    ¬ ReadsBack K [.storeEndpoint e] := by
  rintro ⟨-, hworker, -⟩
  obtain ⟨xs, hread, hperm⟩ := hworker _ (.refl _)
  obtain rfl : xs = [] := List.perm_nil.1 hperm
  have hmem := mem_scanKeys_of_lookup (B := B) (s := Redis.hset ∅ (key .worker e.sandboxID) _)
    (AList.lookup_insert ∅ : _ = some (K.json e))
  generalize hkeys : Redis.scanKeys _ _ = keys at hread
  cases keys with
  | nil => exact List.not_mem_nil (hkeys ▸ hmem)
  | cons k keys => simp [readAll, List.mapM_cons, Option.bind_eq_some_iff] at hread

theorem not_readsBack : ¬ ReadsBack tagged [.storeEndpoint ⟨"sandbox", "10.0.0.1:80", none, 80⟩] :=
  not_readsBack_storeEndpoint tagged _

end Dirigent.ControlPlane
