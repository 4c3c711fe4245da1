import Delorean.Eth.Conv

/-!
# Ethereum log filters over CometBFT subscriptions

`fendermint/eth/api/src/filters.rs`. An `eth_newFilter` or `eth_subscribe("logs")` filter becomes
several CometBFT subscriptions (`FilterKind::to_queries`): CometBFT queries only conjoin conditions,
so the filter's alternatives, each address with its three forms (the emitter, the sender and the
recipient of the message) and each topic of every OR-list, are multiplied out into one query per
combination. Every transaction a subscription delivers is handed to the filter's driver, which skips
a transaction it has already seen, and `FilterRecords::update` appends the transaction's logs that
pass `matches_topics`.

A query matches a transaction when each of its conditions is among the transaction's indexed
attributes: the message's sender and recipient, and the emitter and topics of every event it
emitted. The values are typed here where the source writes them as text, each kind by one
`to_string` or `hex::encode`.

`exists_toQueries_matchesTx` says which transactions reach a filter on logs, and `logs_deliver`
what is appended for one: the logs that pass the topic filter, once. A transaction delivered again,
after any run of deliveries, adds nothing (`deliver_again_adds_nothing`). Every log the filter asks
for is returned (`deliver_of_reference`). The address of a filter is checked against the whole
transaction and never against the log, so a log of another emitter, in a transaction the filter's
address sent, received or emitted in, is returned as well (`filterLogs_off_address`).
-/

namespace Delorean.Eth

/-- `ethers`' `H256`: a topic. -/
abbrev H256 := Vector UInt8 32

/-- `ethers`' `ValueOrArray`. -/
inductive ValueOrArray (α : Type)
  | Value (value : α)
  | Array (values : List α)
  deriving DecidableEq, Repr

/-- `ethers`' `Filter`, with the block range given by numbers. The block hash a filter may name is
read by `to_queries` and has no effect there. -/
structure Filter where
  fromBlock : Option Nat
  toBlock : Option Nat
  address : Option (ValueOrArray EthAddress)
  topics : Vector (Option (ValueOrArray (Option H256))) 4
  deriving DecidableEq, Repr

/-- `Filter::has_topics`: some position is constrained. -/
def Filter.hasTopics (filter : Filter) : Bool := filter.topics.toList.any Option.isSome

/-- An actor event as the app indexes it (`to_events`): the emitter's ID, its delegated address
if it has one, and the entries, of which the topics `t1`..`t4` are indexed. -/
structure ActorEvent where
  emitter : ActorID
  deleg : Option Address
  topics : List H256
  data : List UInt8
  deriving DecidableEq, Repr

/-- A transaction as a CometBFT `Tx` event delivers it: its hash, height, the message's sender and
recipient (`to_message_event`), and the events it emitted. -/
structure TxEvent where
  hash : Nat
  height : Nat
  from_ : Address
  to_ : Address
  events : List ActorEvent
  deriving DecidableEq, Repr

/-- An indexed attribute of a transaction, by its composite key. -/
inductive Attr
  /-- `event.emitter.id` -/
  | emitterId (id : ActorID)
  /-- `event.emitter.deleg` -/
  | emitterDeleg (addr : Address)
  /-- `message.from` -/
  | messageFrom (addr : Address)
  /-- `message.to` -/
  | messageTo (addr : Address)
  /-- `event.t{i + 1}` -/
  | topic (i : Nat) (t : H256)
  deriving DecidableEq, Repr

/-- The attributes of one actor event. -/
def ActorEvent.attributes (e : ActorEvent) : List Attr :=
  .emitterId e.emitter :: (e.deleg.map Attr.emitterDeleg).toList ++
    e.topics.mapIdx fun i t => .topic i t

/-- The attributes CometBFT indexes for a transaction. -/
def TxEvent.attributes (tx : TxEvent) : List Attr :=
  [.messageFrom tx.from_, .messageTo tx.to_] ++ tx.events.flatMap ActorEvent.attributes

/-- `tendermint_rpc`'s `EventType`. -/
inductive EventType
  | NewBlock
  | Tx
  deriving DecidableEq, Repr

/-- A condition of a query. -/
inductive Cond
  | eq (attr : Attr)
  /-- `tx.height >= n` -/
  | heightGe (n : Nat)
  /-- `tx.height <= n` -/
  | heightLe (n : Nat)
  deriving DecidableEq, Repr

/-- `tendermint_rpc`'s `Query`: an optional event type and a conjunction of conditions. -/
structure Query where
  eventType : Option EventType
  conditions : List Cond
  deriving DecidableEq, Repr

namespace Query

/-- `Query::default()`. -/
def default : Query := ⟨none, []⟩

/-- `Query::from(EventType)`. -/
def ofEventType (t : EventType) : Query := ⟨some t, []⟩

def andEq (q : Query) (attr : Attr) : Query := { q with conditions := q.conditions ++ [.eq attr] }

def andGte (q : Query) (n : Nat) : Query := { q with conditions := q.conditions ++ [.heightGe n] }

def andLte (q : Query) (n : Nat) : Query := { q with conditions := q.conditions ++ [.heightLe n] }

/-- A condition holds of a transaction. -/
def Cond.holds (tx : TxEvent) : Cond → Bool
  | .eq attr => attr ∈ tx.attributes
  | .heightGe n => n ≤ tx.height
  | .heightLe n => tx.height ≤ n

/-- A query matches a transaction: it asks for `Tx` events or none in particular, and each of its
conditions holds. -/
def matchesTx (q : Query) (tx : TxEvent) : Bool :=
  q.eventType != some .NewBlock && q.conditions.all (Cond.holds tx)

end Query

/-- `FilterKind`. -/
inductive FilterKind
  | NewBlocks
  | PendingTransactions
  | Logs (filter : Filter)
  deriving DecidableEq, Repr

/-- The topics a position of the filter asks for, as `to_queries` reads them: `null` entries of an
array are dropped, and a `null` value asks for none. -/
def positionTopics : ValueOrArray (Option H256) → List H256
  | .Value (some t) => [t]
  | .Array ts => ts.reduceOption
  | .Value none => []

/-- The three queries of one address in `to_queries`: the emitter in the form of the address,
the sender and the recipient. -/
def addressQueries (addr : Address) (q : Query) : List Query :=
  let emitters := match addr with
    -- a masked ID
    | .ID id => [q.andEq (.emitterId id)]
    | _ => [q.andEq (.emitterDeleg addr)]
  emitters ++ [q.andEq (.messageFrom addr), q.andEq (.messageTo addr)]

/-- One position of the topic loop of `to_queries`. -/
def topicQueries (filter : Filter) (queries : List Query) (i : Fin 4) : List Query :=
  match filter.topics[i] with
  | some topics =>
    let topics := positionTopics topics
    if !topics.isEmpty then topics.flatMap fun t => queries.map fun q => q.andEq (.topic i t)
    else queries
  | none => queries

/-- `FilterKind::to_queries`. -/
def FilterKind.toQueries : FilterKind → List Query
  | .NewBlocks => [.ofEventType .NewBlock]
  | .PendingTransactions => [.ofEventType .NewBlock]
  | .Logs filter =>
    let query := if filter.hasTopics || filter.address.isSome then Query.default
      else Query.ofEventType .Tx
    let query := match filter.fromBlock with
      | some from_block => query.andGte from_block
      | none => query
    let query := match filter.toBlock with
      | some to_block => query.andLte to_block
      | none => query
    let queries := [query]
    let addrs := match filter.address with
      | none => []
      | some (.Value addr) => [addr]
      | some (.Array addrs) => addrs
    -- the filter's Ethereum addresses as the FVM addresses CometBFT indexes
    let addrs := addrs.map EthAddress.toAddress
    let queries := if !addrs.isEmpty then addrs.flatMap fun addr => queries.flatMap (addressQueries addr)
      else queries
    (List.finRange 4).foldl (topicQueries filter) queries

/-- `ethers`' `Log`, by what `to_logs` sets from the event: the address, the topics, the data and
the position among the transaction's logs. The block and transaction fields are the same for every
log of a transaction. -/
structure Log where
  address : EthAddress
  topics : List H256
  data : List UInt8
  transaction_log_index : Nat
  deriving DecidableEq, Repr

/-- The address of a log: the emitter's delegated address as an Ethereum address, or else the
masked form of its ID. -/
def logAddress (e : ActorEvent) : EthAddress :=
  match e.deleg.bind fun addr => (toEthAddress addr).toOption.join with
  | some addr => addr
  | none => EthAddress.fromId e.emitter

/-- `from_tm::to_logs`: one log for each actor event, in order. -/
def toLogs (tx : TxEvent) : List Log :=
  tx.events.mapIdx fun idx e => ⟨logAddress e, e.topics, e.data, idx⟩

/-- `matches_topics`: each constrained position holds one of the topics asked for. -/
def matchesTopics (filter : Filter) (log : Log) : Bool :=
  (List.finRange 4).all fun i =>
    match filter.topics[i] with
    | some topics =>
      let topic := log.topics[i.val]?
      match topics with
      | .Value (some t) => topic == some t
      | .Array ts => ts.reduceOption.any fun t => topic == some t
      | .Value none => true
    | none => true

/-- `FilterRecords`, with the blocks and transaction hashes left abstract. -/
inductive FilterRecords (B TxHash : Type)
  | NewBlocks (blocks : List B)
  | PendingTransactions (hashes : List TxHash)
  | Logs (logs : List Log)
  deriving DecidableEq, Repr

/-- `FilterRecords::update` with a `Tx` event: logs are appended, those failing the topic filter
left out; the other records take no `Tx` events. -/
def FilterRecords.update {B TxHash : Type} (records : FilterRecords B TxHash) (tx : TxEvent)
    (filter : Option Filter) : FilterRecords B TxHash :=
  match records with
  | .Logs logs =>
    let tx_logs := toLogs tx
    let tx_logs := match filter with
      | some filter => tx_logs.filter (matchesTopics filter)
      | none => tx_logs
    .Logs (logs ++ tx_logs)
  | records => records

/-- The filter driver's state for a polled filter: the transactions it has seen (`tx_cache`, whose
expiry after a minute is not modelled) and the records. -/
structure Driver (B TxHash : Type) where
  kind : FilterKind
  tx_cache : List Nat
  records : FilterRecords B TxHash

/-- The filter `run` passes to `update`. -/
def FilterKind.filter : FilterKind → Option Filter
  | .Logs filter => some filter
  | _ => none

/-- One `Update(event)` of `FilterDriver::run`: a transaction seen before is skipped. -/
def Driver.update {B TxHash : Type} (driver : Driver B TxHash) (tx : TxEvent) : Driver B TxHash :=
  if tx.hash ∈ driver.tx_cache then driver
  else { driver with
    tx_cache := tx.hash :: driver.tx_cache
    records := driver.records.update tx driver.kind.filter }

/-- A transaction reaching the driver through each of its subscriptions that matches it. -/
def Driver.deliver {B TxHash : Type} (driver : Driver B TxHash) (tx : TxEvent) : Driver B TxHash :=
  driver.kind.toQueries.foldl (fun driver q => if q.matchesTx tx then driver.update tx else driver)
    driver

/-! ## Matching -/

namespace Query

variable (q : Query) (tx : TxEvent)

/-- A condition added to a query is conjoined to it. -/
theorem matchesTx_append_cond (c : Cond) :
    ({ q with conditions := q.conditions ++ [c] } : Query).matchesTx tx =
      (q.matchesTx tx && Cond.holds tx c) := by
  simp [matchesTx, Bool.and_assoc]

@[simp] theorem matchesTx_andEq (attr : Attr) :
    (q.andEq attr).matchesTx tx = (q.matchesTx tx && decide (attr ∈ tx.attributes)) :=
  matchesTx_append_cond q tx (.eq attr)

@[simp] theorem matchesTx_andGte (n : Nat) :
    (q.andGte n).matchesTx tx = (q.matchesTx tx && decide (n ≤ tx.height)) :=
  matchesTx_append_cond q tx (.heightGe n)

@[simp] theorem matchesTx_andLte (n : Nat) :
    (q.andLte n).matchesTx tx = (q.matchesTx tx && decide (tx.height ≤ n)) :=
  matchesTx_append_cond q tx (.heightLe n)

@[simp] theorem matchesTx_default : default.matchesTx tx = true := rfl

@[simp] theorem matchesTx_ofEventType_tx : (ofEventType .Tx).matchesTx tx = true := rfl

end Query

/-- The addresses of a filter, as `to_queries` lists them. -/
def Filter.addresses (filter : Filter) : List EthAddress :=
  match filter.address with
  | none => []
  | some (.Value addr) => [addr]
  | some (.Array addrs) => addrs

/-- The transaction is in the filter's block range. -/
def Filter.inRange (filter : Filter) (tx : TxEvent) : Prop :=
  (∀ n ∈ filter.fromBlock, n ≤ tx.height) ∧ ∀ n ∈ filter.toBlock, tx.height ≤ n

/-- An address takes part in the transaction: an event names it as its emitter, in the form of
the address, or it sent or received the message. -/
def AddressSeen (addr : Address) (tx : TxEvent) : Prop :=
  (match addr with
    | .ID id => Attr.emitterId id ∈ tx.attributes
    | _ => Attr.emitterDeleg addr ∈ tx.attributes) ∨
    Attr.messageFrom addr ∈ tx.attributes ∨ Attr.messageTo addr ∈ tx.attributes

/-- A constrained topic position is met somewhere in the transaction: one of the topics asked for
is at that position of some event. -/
def TopicSeen (filter : Filter) (tx : TxEvent) (i : Fin 4) : Prop :=
  ∀ topics ∈ filter.topics[i], positionTopics topics ≠ [] →
    ∃ t ∈ positionTopics topics, Attr.topic i t ∈ tx.attributes

/-! ## The queries of a filter -/

/-- One address: its three queries match exactly when the query matches and the address takes part. -/
theorem exists_addressQueries (addr : Address) (q : Query) (tx : TxEvent) :
    (∃ q' ∈ addressQueries addr q, q'.matchesTx tx) ↔ q.matchesTx tx ∧ AddressSeen addr tx := by
  unfold addressQueries AddressSeen
  cases addr <;> simp [or_and_right, and_or_left, exists_or]

/-- The address stage of `to_queries`, over any queries. -/
theorem exists_address_stage (addrs : List Address) (queries : List Query) (tx : TxEvent) :
    (∃ q ∈ (if !addrs.isEmpty then addrs.flatMap fun addr => queries.flatMap (addressQueries addr)
        else queries), q.matchesTx tx) ↔
      (∃ q ∈ queries, q.matchesTx tx) ∧ (addrs = [] ∨ ∃ addr ∈ addrs, AddressSeen addr tx) := by
  by_cases h : addrs = []
  · simp [h]
  · have hne : (!addrs.isEmpty) = true := by simpa using h
    rw [if_pos hne]
    simp only [List.mem_flatMap, h, false_or]
    constructor
    · rintro ⟨q', ⟨addr, haddr, q, hq, hq'⟩, hmatch⟩
      obtain ⟨hq_match, hseen⟩ := (exists_addressQueries addr q tx).1 ⟨q', hq', hmatch⟩
      exact ⟨⟨q, hq, hq_match⟩, addr, haddr, hseen⟩
    · rintro ⟨⟨q, hq, hq_match⟩, addr, haddr, hseen⟩
      obtain ⟨q', hq', hmatch⟩ := (exists_addressQueries addr q tx).2 ⟨hq_match, hseen⟩
      exact ⟨q', ⟨addr, haddr, q, hq, hq'⟩, hmatch⟩

/-- One topic position: its queries match exactly when some query matches and the position is met. -/
theorem exists_topicQueries (filter : Filter) (queries : List Query) (tx : TxEvent) (i : Fin 4) :
    (∃ q ∈ topicQueries filter queries i, q.matchesTx tx) ↔
      (∃ q ∈ queries, q.matchesTx tx) ∧ TopicSeen filter tx i := by
  unfold topicQueries TopicSeen
  cases htopics : filter.topics[i] with
  | none => simp
  | some topics =>
    by_cases hempty : positionTopics topics = []
    · simp [hempty]
    · have hne : (!(positionTopics topics).isEmpty) = true := by simpa using hempty
      simp only [hne, if_true, List.mem_flatMap, List.mem_map, Option.mem_def, Option.some.injEq,
        forall_eq', ne_eq, hempty, not_false_eq_true, forall_const]
      constructor
      · rintro ⟨_, ⟨t, ht, q, hq, rfl⟩, hmatch⟩
        rw [Query.matchesTx_andEq, Bool.and_eq_true, decide_eq_true_eq] at hmatch
        exact ⟨⟨q, hq, hmatch.1⟩, t, ht, hmatch.2⟩
      · rintro ⟨⟨q, hq, hmatch⟩, t, ht, hattr⟩
        refine ⟨q.andEq (.topic i t), ⟨t, ht, q, hq, rfl⟩, ?_⟩
        simp [hmatch, hattr]

/-- The topic loop of `to_queries`, over any positions. The induction is on the positions, the
queries generalized. -/
theorem exists_foldl_topicQueries (filter : Filter) (tx : TxEvent) :
    ∀ (positions : List (Fin 4)) (queries : List Query),
      (∃ q ∈ positions.foldl (topicQueries filter) queries, q.matchesTx tx) ↔
        (∃ q ∈ queries, q.matchesTx tx) ∧ ∀ i ∈ positions, TopicSeen filter tx i
  | [], queries => by simp
  | i :: positions, queries => by
    rw [List.foldl_cons, exists_foldl_topicQueries filter tx positions, exists_topicQueries]
    simp only [List.mem_cons, forall_eq_or_imp, and_assoc]

/-- The first query of `to_queries` matches a transaction exactly in the block range. -/
theorem base_matchesTx (filter : Filter) (tx : TxEvent) :
    let query := if filter.hasTopics || filter.address.isSome then Query.default
      else Query.ofEventType .Tx
    let query := match filter.fromBlock with
      | some from_block => query.andGte from_block
      | none => query
    let query := match filter.toBlock with
      | some to_block => query.andLte to_block
      | none => query
    query.matchesTx tx = true ↔ filter.inRange tx := by
  intro query₀ query₁ query₂
  have h₀ : query₀.matchesTx tx = true := by
    simp only [query₀]
    split_ifs <;> rfl
  unfold Filter.inRange
  simp only [query₂, query₁]
  cases filter.fromBlock <;> cases filter.toBlock <;> simp [h₀]

/-- A transaction reaches a filter on logs exactly when it is in the block range, one of the
addresses takes part in it (if the filter names any), and every constrained topic position is met
by some event. The conditions are read off the whole transaction, not off one of its events. -/
theorem exists_toQueries_matchesTx (filter : Filter) (tx : TxEvent) :
    (∃ q ∈ (FilterKind.Logs filter).toQueries, q.matchesTx tx) ↔
      filter.inRange tx ∧
        (filter.addresses = [] ∨ ∃ a ∈ filter.addresses, AddressSeen (EthAddress.toAddress a) tx) ∧
        ∀ i, TopicSeen filter tx i := by
  have hbase := base_matchesTx filter tx
  have haddrs : (match filter.address with
      | none => []
      | some (.Value addr) => [addr]
      | some (.Array addrs) => addrs) = filter.addresses := rfl
  unfold FilterKind.toQueries
  dsimp only at hbase ⊢
  rw [haddrs, exists_foldl_topicQueries, exists_address_stage]
  simp only [List.mem_singleton, exists_eq_left, hbase, List.map_eq_nil_iff, List.mem_map,
    exists_exists_and_eq_and, List.mem_finRange, forall_const, and_assoc]

/-! ## The logs a filter returns -/

section Driver

variable {B TxHash : Type} (tx : TxEvent)

theorem Driver.update_of_mem {driver : Driver B TxHash} (h : tx.hash ∈ driver.tx_cache) :
    driver.update tx = driver :=
  if_pos h

theorem Driver.mem_update (driver : Driver B TxHash) : tx.hash ∈ (driver.update tx).tx_cache := by
  unfold Driver.update
  split_ifs with h
  · exact h
  · exact List.mem_cons_self

/-- The subscriptions deliver in turn, and only the first that matches updates the driver: it puts
the transaction into the cache, and the others are skipped. The induction is on the queries. -/
theorem foldl_update :
    ∀ (queries : List Query) (driver : Driver B TxHash),
      queries.foldl (fun driver q => if q.matchesTx tx then driver.update tx else driver) driver =
        if tx.hash ∈ driver.tx_cache then driver
        else if queries.any (·.matchesTx tx) then driver.update tx else driver
  | [], driver => by simp
  | q :: queries, driver => by
    rw [List.foldl_cons, foldl_update queries]
    by_cases hmem : tx.hash ∈ driver.tx_cache
    · simp [hmem, Driver.update_of_mem tx hmem]
    · by_cases hq : q.matchesTx tx
      · simp [hmem, hq, Driver.mem_update]
      · simp [hmem, hq]

/-- A new transaction on a filter on logs: its logs that pass the topic filter are appended once,
if one of the subscriptions matches it, and nothing else is. -/
theorem logs_deliver (filter : Filter) (tx_cache : List Nat) (logs : List Log)
    (hnew : tx.hash ∉ tx_cache) :
    (Driver.deliver (⟨.Logs filter, tx_cache, .Logs logs⟩ : Driver B TxHash) tx).records =
      .Logs (logs ++ if (FilterKind.Logs filter).toQueries.any (·.matchesTx tx)
        then (toLogs tx).filter (matchesTopics filter) else []) := by
  unfold Driver.deliver
  rw [foldl_update, if_neg hnew]
  split_ifs
  · simp [Driver.update, hnew, FilterRecords.update, FilterKind.filter]
  · simp

end Driver

/-- The emitter of an event names an address the way the filter's addresses are indexed: its
delegated address, if it has one, is an `f4` address that is not the `f410` form of a masked ID. -/
def ActorEvent.WellAddressed (e : ActorEvent) : Prop :=
  ∀ d ∈ e.deleg, (∃ ns sub, d = .Delegated ns sub) ∧ isMaskedDelegated d = false

theorem attributes_subset {tx : TxEvent} {e : ActorEvent} (he : e ∈ tx.events) :
    e.attributes ⊆ tx.attributes := fun _ ha =>
  List.mem_append_right _ (List.mem_flatMap.2 ⟨e, he, ha⟩)

/-- The address of a log takes part in its transaction as the emitter: the query on the emitter
that `to_queries` makes of it matches the event. -/
theorem addressSeen_logAddress {tx : TxEvent} {e : ActorEvent} (he : e ∈ tx.events)
    (hwell : e.WellAddressed) : AddressSeen (EthAddress.toAddress (logAddress e)) tx := by
  -- without an Ethereum form of the delegated address, the log carries the masked ID
  have hid : AddressSeen (EthAddress.toAddress (EthAddress.fromId e.emitter)) tx := by
    rw [EthAddress.toAddress_fromId]
    exact .inl (attributes_subset he List.mem_cons_self)
  unfold logAddress
  cases hdeleg : e.deleg with
  | none => exact hid
  | some d =>
    obtain ⟨⟨ns, sub, rfl⟩, hmasked⟩ := hwell d hdeleg
    rw [Option.bind_some]
    cases hconv : toEthAddress (.Delegated ns sub) with
    | error _ => exact hid
    | ok a =>
      cases a with
      | none => exact hid
      | some a =>
        have hback : EthAddress.toAddress a = .Delegated ns sub :=
          toFvmAddress_of_toEthAddress hconv hmasked
        show AddressSeen (EthAddress.toAddress a) tx
        rw [hback]
        refine .inl (attributes_subset he ?_)
        simp [ActorEvent.attributes, hdeleg]

/-- A log that passes the topic filter meets every constrained position in its own event. -/
theorem topicSeen_of_matchesTopics {filter : Filter} {tx : TxEvent} {e : ActorEvent}
    (he : e ∈ tx.events) {log : Log} (htopics : log.topics = e.topics)
    (hmatch : matchesTopics filter log = true) (i : Fin 4) : TopicSeen filter tx i := by
  intro topics hsome hne
  have hat : ∀ t, e.topics[i.val]? = some t → Attr.topic i t ∈ tx.attributes := by
    intro t ht
    obtain ⟨hlt, hget⟩ := List.getElem?_eq_some_iff.1 ht
    refine attributes_subset he (List.mem_append_right _ (List.mem_mapIdx.2 ⟨i, hlt, ?_⟩))
    rw [hget]
  have hi := List.all_eq_true.1 hmatch i (List.mem_finRange i)
  rw [Option.mem_def] at hsome
  rw [hsome, htopics] at hi
  cases topics with
  | Value t =>
    cases t with
    | none => exact absurd rfl hne
    | some t =>
      exact ⟨t, List.mem_singleton_self t, hat t (by simpa using hi)⟩
  | Array ts =>
    obtain ⟨t, ht, heq⟩ := List.any_eq_true.1 hi
    exact ⟨t, ht, hat t (by simpa using heq)⟩

theorem mem_toLogs {tx : TxEvent} {log : Log} (h : log ∈ toLogs tx) :
    ∃ e ∈ tx.events, log.address = logAddress e ∧ log.topics = e.topics := by
  obtain ⟨idx, hlt, rfl⟩ := List.mem_mapIdx.1 h
  exact ⟨tx.events[idx], List.getElem_mem hlt, rfl, rfl⟩

/-- The logs of a transaction are distinct: each has its own position. -/
theorem nodup_toLogs (tx : TxEvent) : (toLogs tx).Nodup := by
  have hindex : (toLogs tx).map Log.transaction_log_index = List.range tx.events.length := by
    refine List.ext_getElem (by simp [toLogs]) fun i h₁ h₂ => ?_
    simp [toLogs]
  refine List.Nodup.of_map Log.transaction_log_index ?_
  rw [hindex]
  exact List.nodup_range

/-- Every log the reference returns is returned: a log of a new transaction in the block range,
whose address is one of the filter's and whose topics pass, is appended, once, with the other logs
of the transaction that pass the topic filter. -/
theorem deliver_of_reference {B TxHash : Type} (filter : Filter) (tx_cache : List Nat)
    (logs : List Log) (tx : TxEvent) (hnew : tx.hash ∉ tx_cache)
    (hwell : ∀ e ∈ tx.events, e.WellAddressed) {log : Log} (hlog : log ∈ toLogs tx)
    (hrange : filter.inRange tx) (haddr : filter.addresses = [] ∨ log.address ∈ filter.addresses)
    (hmatch : matchesTopics filter log = true) :
    (Driver.deliver (⟨.Logs filter, tx_cache, .Logs logs⟩ : Driver B TxHash) tx).records =
        .Logs (logs ++ (toLogs tx).filter (matchesTopics filter)) ∧
      log ∈ (toLogs tx).filter (matchesTopics filter) ∧ ((toLogs tx).filter (matchesTopics filter)).Nodup := by
  obtain ⟨e, he, hlog_addr, hlog_topics⟩ := mem_toLogs hlog
  have hreach : (FilterKind.Logs filter).toQueries.any (·.matchesTx tx) = true := by
    refine List.any_eq_true.2 ((exists_toQueries_matchesTx filter tx).2 ⟨hrange, ?_, ?_⟩)
    · rcases haddr with hnil | hmem
      · exact .inl hnil
      · exact .inr ⟨log.address, hmem, hlog_addr ▸ addressSeen_logAddress he (hwell e he)⟩
    · exact topicSeen_of_matchesTopics he hlog_topics hmatch
  refine ⟨?_, List.mem_filter.2 ⟨hlog, hmatch⟩, (nodup_toLogs tx).filter _⟩
  rw [logs_deliver tx filter tx_cache logs hnew, if_pos hreach]

/-- The transaction of `A` to the contract `B` again, now on a filter on `B`: the log of `B` is
the one returned. -/
theorem deliver_of_reference_emitter :
    let b : EthAddress := Vector.replicate 20 2
    let filter : Filter := ⟨none, none, some (.Value b), Vector.replicate 4 none⟩
    let tx : TxEvent := ⟨1, 5, .Delegated eamActorId (Vector.replicate 20 1).toList,
      .Delegated eamActorId b.toList, [⟨100, some (.Delegated eamActorId b.toList), [], []⟩]⟩
    let log : Log := ⟨b, [], [], 0⟩
    tx.hash ∉ ([] : List Nat) ∧ (∀ e ∈ tx.events, e.WellAddressed) ∧ log ∈ toLogs tx ∧
      filter.inRange tx ∧ (filter.addresses = [] ∨ log.address ∈ filter.addresses) ∧
      matchesTopics filter log = true ∧
      (Driver.deliver (⟨.Logs filter, [], .Logs []⟩ : Driver Unit Unit) tx).records = .Logs [log] := by
  intro b filter tx log
  have hwell : ∀ e ∈ tx.events, e.WellAddressed := by
    intro e he d hd
    rw [List.mem_singleton] at he
    subst he
    rw [Option.mem_def, Option.some.injEq] at hd
    subst hd
    exact ⟨⟨_, _, rfl⟩, by decide⟩
  have hrange : filter.inRange tx :=
    ⟨fun _ h => (Option.not_mem_none _ h).elim, fun _ h => (Option.not_mem_none _ h).elim⟩
  have hlog : log ∈ toLogs tx := by decide
  have haddr : filter.addresses = [] ∨ log.address ∈ filter.addresses := .inr (by decide)
  have hmatch : matchesTopics filter log = true := by decide
  have hdeliver := (@deliver_of_reference Unit Unit filter [] [] tx (by decide) hwell log hlog
    hrange haddr hmatch).1
  exact ⟨by decide, hwell, hlog, hrange, haddr, hmatch, hdeliver.trans (by decide)⟩

/-- A filter on one address `A` and a transaction `A` sends to a contract `B`, which emits a log:
the subscription on `message.from = A` delivers the transaction, and the log of `B` is returned. -/
theorem filterLogs_off_address :
    let a : EthAddress := Vector.replicate 20 1
    let b : EthAddress := Vector.replicate 20 2
    let filter : Filter := ⟨none, none, some (.Value a), Vector.replicate 4 none⟩
    let tx : TxEvent := ⟨1, 5, .Delegated eamActorId a.toList, .Delegated eamActorId b.toList,
      [⟨100, some (.Delegated eamActorId b.toList), [], []⟩]⟩
    let driver : Driver Unit Unit := ⟨.Logs filter, [], .Logs []⟩
    (driver.deliver tx).records = .Logs [⟨b, [], [], 0⟩] ∧ b ≠ a := by
  decide

end Delorean.Eth
