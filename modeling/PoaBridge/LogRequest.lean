import Mathlib.Data.List.DropRight
import PoaBridge.Lib.Loops
import PoaBridge.Relay

/-!
# The request for logs

`web3_filter` of `bridge/src/util.rs` makes a topic filter into a filter of `web3`.
`logs` of `bridge/src/api.rs` sends that to the node as a JSON value, after
`trim_filter` has taken the nulls from the end of the topics.

Nodes do not agree on what a request means.  For some a null needs a topic at its
place, which the logs of the bridge do not have, and an empty list of topics is no
condition for some and cannot be met for others.  `Dialect` has both differences, and
`Dialect.getLogs` is how a node answers a request.

`web3Topic` avoids the second difference, and `trim_filter` the first:
`requests_portable` is the result for every filter and every node.  `Relay` assumes it
where it says that the answers are the matching logs.

The conversion of a topic is code of `ethabi`, and the JSON value of a filter is code of
`web3`.  Both are parameters: of the first nothing is assumed, and of the second that a
node reads the filter in it (`Serializes`).
-/

namespace PoaBridge

/-! ## The filter of an event -/

/-- `ethabi::Topic`. -/
inductive Topic where
  | any
  | oneOf (hashes : List H256)
  | this (hash : H256)
deriving DecidableEq, Repr

/-- The documented `topic.into()`. -/
def Topic.hashes : Topic → List H256
  | .any => []
  | .oneOf hashes => hashes
  | .this hash => [hash]

/-- `ethabi::TopicFilter`. -/
structure TopicFilter where
  topic0 : Topic
  topic1 : Topic
  topic2 : Topic
  topic3 : Topic
deriving DecidableEq, Repr

section Web3Filter

-- `into` is the conversion in `topic.into()`
variable (into : Topic → List H256)

/-- `web3_topic`. -/
def web3Topic (topic : Topic) : Option (List H256) :=
  let t := into topic
  if t.isEmpty then none else some t

/-- `web3_filter`. -/
def TopicFilter.web3Filter (filter : TopicFilter) (addresses : List Address) : Filter where
  address := addresses
  topics := [filter.topic0, filter.topic1, filter.topic2, filter.topic3].map (web3Topic into)

variable {into}

/-- The filters of the three relays. -/
theorem web3Filter_eq (hany : into .any = []) (hthis : ∀ hash, into (.this hash) = [hash])
    (topic0 : H256) (addresses : List Address) :
    web3Filter topic0 addresses
      = TopicFilter.web3Filter into ⟨.this topic0, .any, .any, .any⟩ addresses := by
  simp [web3Filter, TopicFilter.web3Filter, web3Topic, hany, hthis]

end Web3Filter

/-! ## The JSON value -/

/-- A JSON value.  For the text of a number, of an address or of a hash it has what the
text stands for. -/
inductive Json where
  | null
  | bool (value : Bool)
  | text (value : String)
  | number (value : Nat)
  | address (value : Address)
  | hash (value : H256)
  | array (items : List Json)
  | object (entries : List (String × Json))

namespace Json

def isNull : Json → Bool
  | .null => true
  | _ => false

/-- One topic of a filter. -/
def ofTopic : Option (List H256) → Json
  | none => .null
  | some hashes => .array (hashes.map .hash)

/-- The value of the key. -/
def field (entries : List (String × Json)) (key : String) : Json :=
  (entries.lookup key).getD .null

end Json

/-- The documented `helpers::serialize`, with the keys in their order. -/
def Filter.serialize (filter : Filter) (fromBlock toBlock : UInt64) : Json :=
  .object [
    ("address", .array (filter.address.map .address)),
    ("fromBlock", .number fromBlock.toNat),
    ("limit", .null),
    ("toBlock", .number toBlock.toNat),
    ("topics", .array (filter.topics.map .ofTopic))]

/-- One iteration of the loop in `trim_filter1`. -/
def trimBody (vals : List Json) : List Json ⊕ List Json :=
  match vals.getLast? with
  | none => .inr vals
  | some .null => .inl vals.dropLast
  | some _ => .inr vals

/-- `trim_filter1`. -/
def trimFilter1 (vals : List Json) : List Json := vals.rdropWhile Json.isNull

/-- The loop ends with just that. -/
theorem trimFilter1_run (vals vals' : List Json) :
    Loops.Loop trimBody vals vals' ↔ vals' = trimFilter1 vals := by
  unfold trimFilter1
  induction vals using List.reverseRecOn with
  | nil => exact Loops.loop_of_inr rfl
  | append_singleton vals v ih =>
    cases v with
    | null =>
      have hbody : trimBody (vals ++ [.null]) = .inl vals := by
        simp [trimBody]
      rw [Loops.loop_of_inl hbody, ih, List.rdropWhile_concat_pos _ _ _ rfl]
    | bool | text | number | address | hash | array | object =>
      have hbody : ∀ v : Json, v.isNull = false →
          trimBody (vals ++ [v]) = .inr (vals ++ [v]) := by
        intro v hv
        cases v <;> simp_all [trimBody, Json.isNull]
      rw [Loops.loop_of_inr (hbody _ rfl)]
      rw [List.rdropWhile_concat_neg _ _ _ (by simp [Json.isNull])]

/-- The value of `topics` in `trim_filter`. -/
def trimTopics : Json → Json
  | .array vals => .array (trimFilter1 vals)
  | val => val

/-- `trim_filter` of a serialised filter. -/
def trimFilter : Json → Json
  | .object entries => .object <| entries.map fun entry =>
    (entry.1, if entry.1 = "topics" then trimTopics entry.2 else entry.2)
  | val => val

/-! ## The answer of a node -/

/-- What a request asks for. -/
structure Query where
  fromBlock : Nat
  toBlock : Nat
  filter : Filter

namespace Json

def toNumber : Json → Option Nat
  | .number value => some value
  | _ => none

def toAddress : Json → Option Address
  | .address value => some value
  | _ => none

def toHash : Json → Option H256
  | .hash value => some value
  | _ => none

/-- No address, one address or several. -/
def toAddresses : Json → Option (List Address)
  | .null => some []
  | .address value => some [value]
  | .array items => items.mapM toAddress
  | _ => none

/-- No condition on the topic, one hash or several. -/
def toTopic : Json → Option (Option (List H256))
  | .null => some none
  | .hash value => some (some [value])
  | .array items => (items.mapM toHash).map some
  | _ => none

def toTopics : Json → Option (List (Option (List H256)))
  | .null => some []
  | .array items => items.mapM toTopic
  | _ => none

/-- The request that the value stands for.  One with a limit is refused. -/
def toQuery : Json → Option Query
  | .object entries => do
    let address ← (field entries "address").toAddresses
    let fromBlock ← (field entries "fromBlock").toNumber
    let toBlock ← (field entries "toBlock").toNumber
    let topics ← (field entries "topics").toTopics
    if (field entries "limit").isNull then some ⟨fromBlock, toBlock, ⟨address, topics⟩⟩ else none
  | _ => none

end Json

/-- Where nodes differ. -/
structure Dialect where
  /-- A null needs a topic at its place. -/
  nullNeedsTopic : Bool
  /-- An empty list of topics is no condition. -/
  emptyIsAny : Bool

namespace Dialect

/-- A null is met by a topic that is not there, and an empty list is never met. -/
def plain : Dialect := ⟨false, false⟩

def topic (dialect : Dialect) : Option (List H256) → Option (List H256)
  | some [] => if dialect.emptyIsAny then none else some []
  | topic => topic

/-- Whether the node reports the log. -/
def admits (dialect : Dialect) (filter : Filter) (log : Log) : Bool :=
  (!dialect.nullNeedsTopic || decide (filter.topics.length ≤ log.topics.length)) &&
    { filter with topics := filter.topics.map dialect.topic }.matches log

/-- `eth_getLogs` of a node with these blocks. -/
def getLogs (dialect : Dialect) (blocks : Nat → List Log) (request : Json) : Option (List Log) :=
  request.toQuery.map fun query =>
    (List.range' query.fromBlock (query.toBlock + 1 - query.fromBlock)).flatMap fun b =>
      (blocks b).filter (dialect.admits query.filter)

end Dialect

/-! ## Trimming keeps the meaning -/

theorem topicMatches_none (topic : Option H256) : topicMatches none topic = true := by
  cases topic <;> rfl

theorem Filter.matches_iff (filter : Filter) (log : Log) :
    filter.matches log = true ↔
      (filter.address.isEmpty || filter.address.contains log.address) = true ∧
        ∀ i < filter.topics.length,
          topicMatches (filter.topics[i]?.getD none) log.topics[i]? = true := by
  unfold Filter.matches
  rw [Bool.and_eq_true, List.all_eq_true]
  simp only [List.mem_range]

/-- A condition that is always met can be left out at the end. -/
theorem matches_concat_none (address : List Address) (topics : List (Option (List H256)))
    (log : Log) :
    Filter.matches ⟨address, topics ++ [none]⟩ log = Filter.matches ⟨address, topics⟩ log := by
  rw [Bool.eq_iff_iff, Filter.matches_iff, Filter.matches_iff]
  refine and_congr_right fun _ => ?_
  dsimp only
  rw [List.length_append, List.length_singleton]
  constructor
  · intro h i hi
    have hmatches := h i (Nat.lt_succ_of_lt hi)
    rwa [List.getElem?_append_left hi] at hmatches
  · intro h i hi
    rcases Nat.lt_succ_iff_lt_or_eq.1 hi with hi | rfl
    · rw [List.getElem?_append_left hi]
      exact h i hi
    · rw [List.getElem?_concat_length]
      exact topicMatches_none _

theorem matches_rdropWhile (address : List Address) (topics : List (Option (List H256)))
    (log : Log) :
    Filter.matches ⟨address, topics.rdropWhile Option.isNone⟩ log
      = Filter.matches ⟨address, topics⟩ log := by
  induction topics using List.reverseRecOn with
  | nil => rfl
  | append_singleton topics topic ih =>
    cases topic with
    | none => rw [List.rdropWhile_concat_pos _ _ _ rfl, ih, matches_concat_none]
    | some choices => rw [List.rdropWhile_concat_neg _ _ _ (by simp)]

/-- The last condition of a filter needs a topic, if it is one. -/
theorem length_le_of_matches {address : List Address} {topics : List (Option (List H256))}
    {log : Log} (hlast : ∀ h : topics ≠ [], (topics.getLast h).isNone = false)
    (hmatches : Filter.matches ⟨address, topics⟩ log = true) :
    topics.length ≤ log.topics.length := by
  by_cases hnil : topics = []
  · rw [hnil]
    exact Nat.zero_le _
  · have hlt := Nat.sub_lt (List.length_pos_iff.2 hnil) Nat.one_pos
    have hmatch := ((Filter.matches_iff _ log).1 hmatches).2 (topics.length - 1) hlt
    have hlast := hlast hnil
    rw [List.getLast_eq_getElem] at hlast
    obtain ⟨choices, hchoices⟩ := Option.isSome_iff_exists.1 (Option.isNone_eq_false_iff.1 hlast)
    rw [List.getElem?_eq_getElem hlt, hchoices, Option.getD_some] at hmatch
    by_contra hshort
    rw [List.getElem?_eq_none (by omega)] at hmatch
    cases hmatch

/-- `toTopic` reads a null, and only that, as no condition. -/
theorem isNone_of_toTopic {value : Json} {topic : Option (List H256)}
    (h : value.toTopic = some topic) : topic.isNone = value.isNull := by
  cases value with
  | null => rw [← Option.some.inj h]; rfl
  | hash value => rw [← Option.some.inj h]; rfl
  | array items =>
    obtain ⟨hashes, -, rfl⟩ := Option.map_eq_some_iff.1 h
    rfl
  | bool | text | number | address | object => cases h

theorem mapM_concat {β γ : Type} (f : β → Option γ) (xs : List β) (x : β) :
    (xs ++ [x]).mapM f = (xs.mapM f).bind fun ys => (f x).map fun y => ys ++ [y] := by
  rw [List.mapM_append, List.mapM_cons, List.mapM_nil]
  cases xs.mapM f with
  | none => rfl
  | some ys => cases f x <;> rfl

theorem toTopics_trimFilter1 (vals : List Json) :
    (trimFilter1 vals).mapM Json.toTopic
      = (vals.mapM Json.toTopic).map (List.rdropWhile Option.isNone) := by
  unfold trimFilter1
  induction vals using List.reverseRecOn with
  | nil => rfl
  | append_singleton vals v ih =>
    cases hnull : v.isNull with
    | true =>
      have hv : v.toTopic = some none := by
        cases v <;> first | rfl | cases hnull
      rw [List.rdropWhile_concat_pos _ _ _ hnull, ih, mapM_concat, hv]
      cases vals.mapM Json.toTopic with
      | none => rfl
      | some topics => exact congrArg some (List.rdropWhile_concat_pos _ _ _ rfl).symm
    | false =>
      rw [List.rdropWhile_concat_neg _ _ _ (by simp [hnull]), mapM_concat]
      cases vals.mapM Json.toTopic with
      | none => rfl
      | some topics =>
        cases hv : v.toTopic with
        | none => rfl
        | some topic =>
          have hnone : ¬ topic.isNone := by
            rw [isNone_of_toTopic hv, hnull]
            exact Bool.false_ne_true
          exact congrArg some (List.rdropWhile_concat_neg _ _ _ hnone).symm

theorem toTopics_trimTopics (value : Json) :
    (trimTopics value).toTopics = value.toTopics.map (List.rdropWhile Option.isNone) := by
  cases value with
  | array vals => exact toTopics_trimFilter1 vals
  | null => rfl
  | bool | text | number | address | hash | object => rfl

theorem field_map (entries : List (String × Json)) (f : String → Json → Json) (key : String)
    (hf : f key .null = .null) :
    Json.field (entries.map fun entry => (entry.1, f entry.1 entry.2)) key
      = f key (Json.field entries key) := by
  unfold Json.field
  induction entries with
  | nil => exact hf.symm
  | cons entry entries ih =>
    rw [List.map_cons, List.lookup_cons, List.lookup_cons]
    cases hkey : key == entry.1 with
    | true => rw [eq_of_beq hkey]; rfl
    | false => exact ih

/-- The query without the conditions at the end that are always met. -/
def Query.trim (query : Query) : Query :=
  { query with filter.topics := query.filter.topics.rdropWhile Option.isNone }

theorem toQuery_trimFilter (request : Json) :
    (trimFilter request).toQuery = request.toQuery.map Query.trim := by
  cases request with
  | object entries =>
    have hfield : ∀ key, Json.field (entries.map fun entry =>
        (entry.1, if entry.1 = "topics" then trimTopics entry.2 else entry.2)) key
          = if key = "topics" then trimTopics (Json.field entries key)
            else Json.field entries key := by
      intro key
      refine field_map entries (fun k v => if k = "topics" then trimTopics v else v) key ?_
      split <;> rfl
    have htopics := hfield "topics"
    have haddress := hfield "address"
    have hfromBlock := hfield "fromBlock"
    have htoBlock := hfield "toBlock"
    have hlimit := hfield "limit"
    simp only [reduceIte, String.reduceEq] at htopics haddress hfromBlock htoBlock hlimit
    unfold trimFilter Json.toQuery
    dsimp only
    rw [haddress, hfromBlock, htoBlock, htopics, hlimit, toTopics_trimTopics]
    cases (Json.field entries "address").toAddresses with
    | none => rfl
    | some address =>
      cases (Json.field entries "fromBlock").toNumber with
      | none => rfl
      | some fromBlock =>
        cases (Json.field entries "toBlock").toNumber with
        | none => rfl
        | some toBlock =>
          cases (Json.field entries "topics").toTopics with
          | none => rfl
          | some topics =>
            cases (Json.field entries "limit").isNull <;> rfl
  | null | bool | text | number | address | hash | array => rfl

/-! ## What nodes answer -/

/-- The filter has no empty list of topics. -/
def Filter.Definite (filter : Filter) : Prop := some [] ∉ filter.topics

theorem web3Topic_ne (into : Topic → List H256) (topic : Topic) :
    web3Topic into topic ≠ some [] := by
  unfold web3Topic
  cases into topic <;> simp

theorem definite_web3Filter (into : Topic → List H256) (filter : TopicFilter)
    (addresses : List Address) : (filter.web3Filter into addresses).Definite := by
  intro hmem
  obtain ⟨topic, -, htopic⟩ := List.mem_map.1 hmem
  exact web3Topic_ne into topic htopic

/-- The dialect reads the conditions as they are. -/
def Dialect.Literal (dialect : Dialect) (topics : List (Option (List H256))) : Prop :=
  ∀ topic ∈ topics, dialect.topic topic = topic

theorem Filter.Definite.literal {filter : Filter} (h : filter.Definite) (dialect : Dialect) :
    dialect.Literal filter.topics := by
  intro topic hmem
  unfold Dialect.topic
  split
  · exact absurd hmem h
  · rfl

theorem Dialect.literal_of_not_emptyIsAny {dialect : Dialect} (h : dialect.emptyIsAny = false)
    (topics : List (Option (List H256))) : dialect.Literal topics := by
  intro topic _
  unfold Dialect.topic
  split
  · rw [if_neg (by rw [h]; exact Bool.false_ne_true)]
  · rfl

theorem Dialect.Literal.admits {dialect : Dialect} {filter : Filter}
    (h : dialect.Literal filter.topics) (log : Log) :
    dialect.admits filter log
      = ((!dialect.nullNeedsTopic || decide (filter.topics.length ≤ log.topics.length)) &&
        filter.matches log) := by
  unfold Dialect.admits
  rw [List.map_congr_left h, List.map_id']

theorem Dialect.admits_plain (filter : Filter) (log : Log) :
    Dialect.plain.admits filter log = filter.matches log := by
  rw [(Dialect.literal_of_not_emptyIsAny rfl _).admits]
  rfl

/-- After the trimming every node reports the logs of the filter. -/
theorem Dialect.Literal.admits_trim {dialect : Dialect} {filter : Filter}
    (h : dialect.Literal filter.topics) (log : Log) :
    dialect.admits { filter with topics := filter.topics.rdropWhile Option.isNone } log
      = filter.matches log := by
  have htrimmed : dialect.Literal (filter.topics.rdropWhile Option.isNone) := fun topic hmem =>
    h topic ((List.rdropWhile_prefix _ _).subset hmem)
  rw [htrimmed.admits]
  dsimp only
  rw [matches_rdropWhile]
  cases hmatches : filter.matches log with
  | false => rw [Bool.and_false]
  | true =>
    have hlength : (filter.topics.rdropWhile Option.isNone).length ≤ log.topics.length := by
      refine @length_le_of_matches filter.address _ _ (fun hne => ?_) ?_
      · exact Bool.eq_false_iff.2 (List.rdropWhile_last_not _ _ hne)
      · rw [matches_rdropWhile]
        exact hmatches
    rw [decide_eq_true hlength, Bool.or_true, Bool.true_and]

theorem mapM_map_eq_some {β γ : Type} {f : β → γ} {g : γ → Option β}
    (h : ∀ x, g (f x) = some x) (xs : List β) : (xs.map f).mapM g = some xs := by
  induction xs with
  | nil => rfl
  | cons x xs ih =>
    rw [List.map_cons, List.mapM_cons, h, ih]
    rfl

/-- A node reads the serialised filter. -/
def Serializes (serialize : Filter → UInt64 → UInt64 → Json) : Prop :=
  ∀ filter fromBlock toBlock, (serialize filter fromBlock toBlock).toQuery
    = some ⟨fromBlock.toNat, toBlock.toNat, filter⟩

theorem serializes_serialize : Serializes Filter.serialize := by
  intro filter fromBlock toBlock
  have haddress : ∀ address, (Json.address address).toAddress = some address := fun _ => rfl
  have hhash : ∀ hash, (Json.hash hash).toHash = some hash := fun _ => rfl
  have htopic : ∀ topic, (Json.ofTopic topic).toTopic = some topic := by
    intro topic
    cases topic with
    | none => rfl
    | some hashes => exact congrArg (Option.map some) (mapM_map_eq_some hhash hashes)
  show (do
    let address ← (filter.address.map Json.address).mapM Json.toAddress
    let topics ← (filter.topics.map Json.ofTopic).mapM Json.toTopic
    some (Query.mk fromBlock.toNat toBlock.toNat ⟨address, topics⟩)) = _
  rw [mapM_map_eq_some haddress, mapM_map_eq_some htopic]
  rfl

/-- Every node answers the request for a filter with its matching logs, also a node that
needs a topic at the place of a null and one for which an empty list of topics is no
condition.

A request of any form means to a node that needs such topics, after the trimming, what it
means to one that does not.  Without the trimming the first node would only report those
logs of a filter of the bridge that have four topics. -/
theorem requests_portable (into : Topic → List H256)
    (serialize : Filter → UInt64 → UInt64 → Json) (hserialize : Serializes serialize)
    (dialect : Dialect) (blocks : Nat → List Log) :
    (∀ (filter : TopicFilter) (addresses : List Address) (fromBlock toBlock : UInt64),
      dialect.getLogs blocks
          (trimFilter (serialize (filter.web3Filter into addresses) fromBlock toBlock))
        = some (matchingLogs blocks (filter.web3Filter into addresses) fromBlock.toNat
          toBlock.toNat)) ∧
      (dialect.emptyIsAny = false → ∀ request : Json,
        dialect.getLogs blocks (trimFilter request) = Dialect.plain.getLogs blocks request) ∧
      (dialect.nullNeedsTopic = true →
        ∀ (filter : TopicFilter) (addresses : List Address) (fromBlock toBlock : UInt64),
          dialect.getLogs blocks (serialize (filter.web3Filter into addresses) fromBlock toBlock)
            = some ((matchingLogs blocks (filter.web3Filter into addresses) fromBlock.toNat
              toBlock.toNat).filter fun log => 4 ≤ log.topics.length)) := by
  refine ⟨fun filter addresses fromBlock toBlock => ?_, fun hempty request => ?_,
    fun hnull filter addresses fromBlock toBlock => ?_⟩
  · have hliteral := (definite_web3Filter into filter addresses).literal dialect
    unfold Dialect.getLogs matchingLogs
    rw [toQuery_trimFilter, hserialize, Option.map_some, Option.map_some]
    unfold Query.trim
    rw [funext hliteral.admits_trim]
  · unfold Dialect.getLogs
    rw [toQuery_trimFilter, Option.map_map]
    refine congrFun (congrArg Option.map (funext fun query => ?_)) _
    have hliteral := Dialect.literal_of_not_emptyIsAny hempty query.filter.topics
    unfold Query.trim
    dsimp only [Function.comp]
    rw [funext hliteral.admits_trim, funext (Dialect.admits_plain query.filter)]
  · have hliteral := (definite_web3Filter into filter addresses).literal dialect
    unfold Dialect.getLogs matchingLogs
    rw [hserialize, Option.map_some, List.filter_flatMap]
    simp only [List.filter_filter]
    rw [funext hliteral.admits, hnull]
    rfl

/-- A log with one topic, in block 1. -/
def oneTopicLog : Log := ⟨0xB0, [7], [], some 1⟩

/-- A node of both dialects reports the log. -/
theorem requests_portable_oneTopicLog :
    Dialect.getLogs ⟨true, true⟩ (fun b => if b = 1 then [oneTopicLog] else [])
        (trimFilter (Filter.serialize
          (TopicFilter.web3Filter Topic.hashes ⟨.this 7, .any, .any, .any⟩ [0xB0]) 1 2))
      = some [oneTopicLog] :=
  ((requests_portable Topic.hashes Filter.serialize serializes_serialize ⟨true, true⟩ _).1
    ⟨.this 7, .any, .any, .any⟩ [0xB0] 1 2).trans (by decide)

end PoaBridge
