import Floatile.Lib.Weight
import Floatile.Services.Broker
import Floatile.Services.Texts

/-! The account of a private store over whole runs: the counter is the length of the stored values.
The quota does not count keys, so what is retained is bounded only where the grant lists them. -/
namespace Floatile.Services

open Floatile.Core
open Floatile.Core.Capability
open Floatile.Lib Floatile.Lib.Trace
open Floatile.Lib.Checked (Fails)

inductive StorageCall where
  | get (key : String)
  | set (key value : String)
  | delete (key : String)
  deriving DecidableEq

/-- What a call leaves under a key. -/
def StorageCall.leave (key : String) (before : Option String) : StorageCall → Option String
  | .get _ => before
  | .set k value => if k = key then some value else before
  | .delete k => if k = key then none else before

/-- The value of the latest call that sets the key, unless it is deleted afterwards. -/
def latest (key : String) (calls : List StorageCall) : Option String :=
  calls.foldl (StorageCall.leave key) none

namespace StorageService

variable (s : StorageService)

def perform : StorageCall →
    Outcome StorageService ServiceEffect (Except StorageError (Option String))
  | .get key => s.get key
  | .set key value => (s.set key value).map (fun result => result.map (fun _ => none))
  | .delete key => (s.delete key).map (fun result => result.map (fun _ => none))

def run (calls : List StorageCall) : StorageService :=
  calls.foldl (fun s call => (s.perform call).state) s

/-- The calls of a run that have not failed. -/
def succeeded (s : StorageService) : List StorageCall → List StorageCall
  | [] => []
  | call :: calls =>
    let rest := (s.perform call).state.succeeded calls
    if (s.perform call).result.isOk then call :: rest else rest

/-- The bytes that a call takes away from the counter. -/
def released : StorageCall → ℕ
  | .get _ => 0
  | .set key _ | .delete key => s.data.weightAt (fun _ => Text.byteLen) key

def valueBytes : ℕ := s.data.weight (fun _ => Text.byteLen)

/-- All that is retained: the keys and the values. -/
def retainedBytes : ℕ := s.data.weight (fun key value => Text.byteLen key + Text.byteLen value)

/-- The counter is the length of the values, and the quota holds. -/
structure Accounted : Prop where
  total : s.totalBytes = s.valueBytes
  quota : s.totalBytes ≤ s.maxBytes

variable {s}

theorem accounted_new (maxBytes : ℕ) : (new maxBytes).Accounted := ⟨rfl,Nat.zero_le _⟩

theorem Accounted.released_le (h : s.Accounted) (call : StorageCall) :
    s.released call ≤ s.totalBytes := by
  rw [h.total]
  cases call with
  | get key => exact Nat.zero_le _
  | set key value => exact OrdMap.weightAt_le (fun _ => Text.byteLen) s.data key
  | delete key => exact OrdMap.weightAt_le (fun _ => Text.byteLen) s.data key

/-- The cases of a call that sets a key. -/
theorem set_cases (s : StorageService) (key value : String) :
    (Fails (s.set key value).result ∧ (s.set key value).state = s) ∨
    (validKey key = .ok () ∧ s.totalWith key value ≤ s.maxBytes ∧
      (s.set key value).result = .ok () ∧ (s.set key value).state = { s with
        totalBytes := s.totalWith key value
        data := s.data.insert key value }) := by
  unfold set
  cases hkey : validKey key with
  | error e => exact Or.inl ⟨by simp,rfl⟩
  | ok u =>
    dsimp only
    split_ifs with hquota
    · exact Or.inl ⟨by simp,rfl⟩
    · exact Or.inr ⟨rfl,not_lt.mp hquota,rfl,rfl⟩

/-- The cases of a call that deletes a key. -/
theorem delete_cases (s : StorageService) (key : String) :
    (Fails (s.delete key).result ∧ (s.delete key).state = s) ∨
    ((s.delete key).result = .ok () ∧ (s.delete key).state = { s with
        totalBytes := s.totalBytes - s.released (.delete key)
        data := s.data.erase key }) := by
  unfold delete
  cases hkey : validKey key with
  | error e => exact Or.inl ⟨by simp,rfl⟩
  | ok u =>
    right
    cases hget : s.data.get key with
    | none => simp [released, OrdMap.weightAt, hget, OrdMap.erase_of_get_none hget]
    | some value => simp [released, OrdMap.weightAt, hget]

theorem get_state (key : String) : (s.get key).state = s := by
  unfold get
  cases validKey key <;> rfl

/-- A call that fails leaves the store as it was. -/
theorem perform_of_fails {call : StorageCall} (h : Fails (s.perform call).result) :
    (s.perform call).state = s := by
  cases call with
  | get key => exact get_state key
  | set key value =>
    rcases set_cases s key value with ⟨-,hstate⟩ | ⟨-,-,hok,-⟩
    · exact hstate
    · simp [perform, hok] at h
  | delete key =>
    rcases delete_cases s key with ⟨-,hstate⟩ | ⟨hok,-⟩
    · exact hstate
    · simp [perform, hok] at h

theorem Accounted.perform (h : s.Accounted) (call : StorageCall) :
    (s.perform call).state.Accounted := by
  cases call with
  | get key =>
    rw [show (s.perform (.get key)).state = s from get_state key]
    exact h
  | set key value =>
    have hreleased := h.released_le (.set key value)
    have hsplit := OrdMap.weight_eq (fun _ => Text.byteLen) s.data key
    have hinsert := OrdMap.weight_insert (fun _ => Text.byteLen) s.data key value
    have hwith : s.totalWith key value =
        s.totalBytes - s.released (.set key value) + Text.byteLen value := rfl
    rcases set_cases s key value with ⟨-,hstate⟩ | ⟨-,hquota,-,hstate⟩
    · rw [show (s.perform (.set key value)).state = s from hstate]
      exact h
    · have htotal := h.total
      refine hstate ▸ ⟨?_,hquota⟩
      simp only [valueBytes, released] at hreleased htotal hwith ⊢
      omega
  | delete key =>
    have hreleased := h.released_le (.delete key)
    have hsplit := OrdMap.weight_eq (fun _ => Text.byteLen) s.data key
    rcases delete_cases s key with ⟨-,hstate⟩ | ⟨-,hstate⟩
    · rw [show (s.perform (.delete key)).state = s from hstate]
      exact h
    · have htotal := h.total
      have hquota := h.quota
      refine hstate ▸ ⟨?_,?_⟩
      all_goals
        simp only [valueBytes, released] at hreleased htotal ⊢
        omega

theorem maxBytes_perform (call : StorageCall) :
    (s.perform call).state.maxBytes = s.maxBytes := by
  cases call with
  | get key => rw [show (s.perform (.get key)).state = s from get_state key]
  | set key value =>
    rcases set_cases s key value with ⟨-,hstate⟩ | ⟨-,-,-,hstate⟩
    · exact congrArg maxBytes (show (s.perform (.set key value)).state = s from hstate)
    · exact (congrArg maxBytes hstate :)
  | delete key =>
    rcases delete_cases s key with ⟨-,hstate⟩ | ⟨-,hstate⟩
    · exact congrArg maxBytes (show (s.perform (.delete key)).state = s from hstate)
    · exact (congrArg maxBytes hstate :)

/-- A call that succeeds leaves under every key what it says. -/
theorem get_perform (call : StorageCall) (key : String) :
    (s.perform call).state.data.get key =
      if (s.perform call).result.isOk then call.leave key (s.data.get key)
      else s.data.get key := by
  cases call with
  | get k =>
    rw [show (s.perform (.get k)).state = s from get_state k]
    exact (ite_self _).symm
  | set k value =>
    rcases set_cases s k value with ⟨hfails,hstate⟩ | ⟨-,-,hok,hstate⟩
    · obtain ⟨e,he⟩ := hfails
      simp [perform, hstate, he, Except.isOk, Except.toBool, Except.map]
    · simp [perform, hstate, hok, Except.isOk, Except.toBool, Except.map, StorageCall.leave,
        OrdMap.get_insert, eq_comm]
  | delete k =>
    rcases delete_cases s k with ⟨hfails,hstate⟩ | ⟨hok,hstate⟩
    · obtain ⟨e,he⟩ := hfails
      simp [perform, hstate, he, Except.isOk, Except.toBool, Except.map]
    · simp [perform, hstate, hok, Except.isOk, Except.toBool, Except.map, StorageCall.leave,
        OrdMap.get_erase, eq_comm]

theorem Accounted.run (h : s.Accounted) (calls : List StorageCall) : (s.run calls).Accounted := by
  induction calls generalizing s with
  | nil => exact h
  | cons call calls ih => exact ih (h.perform call)

theorem maxBytes_run (calls : List StorageCall) : (s.run calls).maxBytes = s.maxBytes := by
  induction calls generalizing s with
  | nil => rfl
  | cons call calls ih => exact ih.trans (maxBytes_perform call)

theorem get_run (calls : List StorageCall) (key : String) :
    (s.run calls).data.get key =
      (s.succeeded calls).foldl (StorageCall.leave key) (s.data.get key) := by
  induction calls generalizing s with
  | nil => rfl
  | cons call calls ih =>
    rw [run, List.foldl_cons]
    refine ih.trans ?_
    rw [get_perform, succeeded]
    split_ifs <;> rfl

/-- After any calls, the counter is the length of the stored values and within the quota, no call
takes away more than there is, a call that fails changes nothing, and a valid key has the value of
the latest call that set it. -/
theorem storage_accounts (maxBytes : ℕ) (calls : List StorageCall) :
    let start := new maxBytes
    let s := start.run calls
    s.totalBytes = s.valueBytes ∧ s.totalBytes ≤ maxBytes ∧
    (∀ call, s.released call ≤ s.totalBytes) ∧
    (∀ call, Fails (s.perform call).result → (s.perform call).state = s) ∧
    ∀ key, validKey key = .ok () →
      (s.get key).result = .ok (latest key (start.succeeded calls)) := by
  intro start s
  have haccounted : s.Accounted := (accounted_new maxBytes).run calls
  have hmax : s.maxBytes = maxBytes := maxBytes_run calls
  refine ⟨haccounted.total,hmax ▸ haccounted.quota,haccounted.released_le,
    fun _ => perform_of_fails,fun key hkey => ?_⟩
  have hget : s.data.get key = latest key (start.succeeded calls) := get_run calls key
  rw [get, hkey, ← hget]

theorem retainedBytes_eq (s : StorageService) : s.retainedBytes =
    s.data.weight (fun key _ => Text.byteLen key) + s.valueBytes :=
  OrdMap.weight_add _ _ _

/-- The keys that are stored weigh no more than a list of all keys that may be stored. -/
theorem Accounted.retainedBytes_le (h : s.Accounted) {keys : List String}
    (hkeys : ∀ e ∈ s.data.entries, e.1 ∈ keys) :
    s.retainedBytes ≤ s.maxBytes + (keys.map Text.byteLen).sum := by
  have hweight := OrdMap.weight_key_le (f := Text.byteLen) hkeys
  have htotal := h.total
  have hquota := h.quota
  rw [retainedBytes_eq]
  omega

end StorageService

namespace Broker

variable {b : Broker}

/-- The broker after calls that store values under keys. -/
def stores (b : Broker) (sets : List (String × String)) : Broker :=
  sets.foldl (fun b e => (b.storageSet e.1 e.2).state) b

/-- A call is refused, or the grant allows it and the store performs it. -/
theorem storageSet_cases (b : Broker) (key value : String) :
    (b.storageSet key value).state = b ∨
    (Authority.Allows (findGrant b.grants.caps .storageWrite)
        (some (.storage [key] (Text.byteLen value))) ∧
      (b.storageSet key value).state = { b with storage := (b.storage.set key value).state }) := by
  have hdecided := authorize_eq_ok b.grants.caps b.audit .storageWrite
    (some (.storage [key] (Text.byteLen value)))
    s!"storage set key={key} len={Text.byteLen value}"
  unfold storageSet guarded
  cases hresult : (b.authorize .storageWrite (some (.storage [key] (Text.byteLen value)))
      s!"storage set key={key} len={Text.byteLen value}").result with
  | error reason => exact Or.inl rfl
  | ok u => exact Or.inr ⟨hdecided.mp hresult,rfl⟩

/-- What holds of the store of a broker during calls that store values. -/
structure Stocked (b start : Broker) : Prop where
  grants : b.grants = start.grants
  maxBytes : b.storage.maxBytes = start.storage.maxBytes
  accounted : b.storage.Accounted

theorem Stocked.stores {start : Broker} (h : b.Stocked start) (sets : List (String × String)) :
    (b.stores sets).Stocked start := by
  induction sets generalizing b with
  | nil => exact h
  | cons e sets ih =>
    refine ih (b := (b.storageSet e.1 e.2).state) ?_
    rcases storageSet_cases b e.1 e.2 with hsame | ⟨-,hset⟩
    · rw [hsame]
      exact h
    · rw [hset]
      exact ⟨h.grants,(b.storage.maxBytes_perform (.set e.1 e.2)).trans h.maxBytes,
        h.accounted.perform (.set e.1 e.2)⟩

theorem stocked_new (plugin : PluginId) (generation : ℕ) (grants : InstanceGrant)
    (audit : AuditSink) (now : ℕ) :
    (Broker.new plugin generation grants audit now).Stocked
      (Broker.new plugin generation grants audit now) where
  grants := rfl
  maxBytes := rfl
  accounted := StorageService.accounted_new _

/-- The keys that the grant for storing lists. -/
def listedKeys (caps : List Grant) : List String :=
  match (findGrant caps .storageWrite).bind Grant.params with
  | some (.storage keys _) => keys
  | _ => []

/-- The grant for storing, if there is one, lists its keys. -/
def ListsKeys (caps : List Grant) : Prop :=
  ∀ maxBytes, (findGrant caps .storageWrite).bind Grant.params ≠ some (.storage [] maxBytes)

/-- Where keys are listed, no other key is let in. -/
theorem mem_listedKeys {caps : List Grant} (hlists : ListsKeys caps) {key : String} {n : ℕ}
    (hallowed : Authority.Allows (findGrant caps .storageWrite) (some (.storage [key] n))) :
    key ∈ listedKeys caps := by
  unfold ListsKeys at hlists
  unfold listedKeys
  cases hgrant : findGrant caps .storageWrite with
  | none =>
    rw [hgrant] at hallowed
    exact absurd hallowed (Authority.not_allows_none _)
  | some g =>
    rw [hgrant] at hlists hallowed
    rw [Authority.allows_some_iff] at hallowed
    rw [Option.bind_some] at hlists ⊢
    cases hparams : g.params with
    | none => simp [hparams, Authority.Permits] at hallowed
    | some params =>
      rw [hparams] at hlists hallowed
      cases params with
      | storage keys maxBytes =>
        obtain ⟨hnil | hlisted,-⟩ := hallowed
        · exact absurd (by rw [hnil]) (hlists maxBytes)
        · exact hlisted key List.mem_cons_self
      | timer maxPerMinute maxActive => exact absurd hallowed id
      | metrics sampleRateHz => exact absurd hallowed id
      | network origins maxRequests maxBytes maxTimeout => exact absurd hallowed id

theorem mem_keys_of_stores {start : Broker} (hlists : ListsKeys start.grants.caps)
    (hb : b.grants = start.grants)
    (h : ∀ e ∈ b.storage.data.entries, e.1 ∈ listedKeys start.grants.caps)
    (sets : List (String × String)) :
    ∀ e ∈ (b.stores sets).storage.data.entries, e.1 ∈ listedKeys start.grants.caps := by
  induction sets generalizing b with
  | nil => exact h
  | cons e sets ih =>
    change ∀ e' ∈ ((b.storageSet e.1 e.2).state.stores sets).storage.data.entries,
      e'.1 ∈ listedKeys start.grants.caps
    rcases storageSet_cases b e.1 e.2 with hsame | ⟨hallowed,hset⟩
    · rw [hsame]
      exact ih hb h
    · refine ih (by rw [hset, hb]) ?_
      rw [hb] at hallowed
      have hmem := mem_listedKeys hlists hallowed
      rw [hset]
      rcases b.storage.set_cases e.1 e.2 with ⟨-,hstate⟩ | ⟨-,-,-,hstate⟩
      · rw [hstate]
        exact h
      · rw [hstate]
        intro e' he'
        rcases SortedMap.mem_insert he' with rfl | hold
        · exact hmem
        · exact h e' hold

/-- Under a grant that lists keys, only the listed keys come on top of the quota. -/
theorem retained_le_of_listed {plugin : PluginId} {generation : ℕ} {grants : InstanceGrant}
    {audit : AuditSink} {now : ℕ} (hlists : ListsKeys (mergeInherent grants.caps))
    (sets : List (String × String)) :
    let start := Broker.new plugin generation grants audit now
    (start.stores sets).storage.retainedBytes ≤ start.storage.maxBytes +
      ((listedKeys (mergeInherent grants.caps)).map Text.byteLen).sum := by
  intro start
  have hstocked : (start.stores sets).Stocked start :=
    (stocked_new plugin generation grants audit now).stores sets
  rw [← hstocked.maxBytes]
  refine hstocked.accounted.retainedBytes_le ?_
  have hstart : start.grants = start.grants := rfl
  exact mem_keys_of_stores hlists hstart (fun _ he => absurd he List.not_mem_nil) sets

/-- Under a grant without listed keys an empty value is stored under every valid key. -/
theorem get_storageSet_empty {g : Grant} {maxBytes : ℕ} {key : String}
    (hgrant : findGrant b.grants.caps .storageWrite = some g)
    (hparams : g.params = some (.storage [] maxBytes)) (h : b.storage.Accounted)
    (hkey : validKey key = .ok ()) :
    (b.storageSet key "").state.grants = b.grants ∧
      (b.storageSet key "").state.storage.data = b.storage.data.insert key "" := by
  have hallowed : Authority.Allows (findGrant b.grants.caps .storageWrite)
      (some (.storage [key] (Text.byteLen ""))) := by
    rw [hgrant, Authority.allows_some_iff, hparams]
    exact ⟨Or.inl rfl,Nat.zero_le _⟩
  have hresult : ∀ detail, (b.authorize .storageWrite
      (some (.storage [key] (Text.byteLen ""))) detail).result = .ok () :=
    fun detail => (authorize_eq_ok ..).mpr hallowed
  have hquota : b.storage.totalWith key "" ≤ b.storage.maxBytes :=
    le_trans (Nat.sub_le _ _) h.quota
  unfold storageSet guarded
  rw [hresult]
  refine ⟨rfl,?_⟩
  change (b.storage.set key "").state.data = _
  rw [StorageService.set, hkey]
  simp only [not_lt.mpr hquota, if_false]

/-- Without listed keys all valid keys can be retained at once. -/
theorem retains_all_keys {start : Broker} {g : Grant} {maxBytes : ℕ}
    (hgrant : findGrant b.grants.caps .storageWrite = some g)
    (hparams : g.params = some (.storage [] maxBytes)) (h : b.Stocked start) (keys : List String)
    (hkeys : ∀ key ∈ keys, validKey key = .ok ()) (i : String)
    (hi : i ∈ keys ∨ (b.storage.data.get i).isSome) :
    ((b.stores (keys.map (fun key => (key,"")))).storage.data.get i).isSome := by
  induction keys generalizing b with
  | nil => simpa [stores] using hi
  | cons key keys ih =>
    obtain ⟨hsame,hdata⟩ :=
      get_storageSet_empty hgrant hparams h.accounted (hkeys key List.mem_cons_self)
    refine ih (b := (b.storageSet key "").state) (hsame ▸ hgrant) (h.stores [(key,"")])
      (fun k hk => hkeys k (List.mem_cons_of_mem _ hk)) ?_
    rw [hdata, OrdMap.get_insert]
    rcases hi with hmem | hstored
    · rcases List.mem_cons.mp hmem with rfl | hmem
      · exact Or.inr (by simp)
      · exact Or.inl hmem
    · right
      split_ifs <;> simp [hstored]

theorem validKey_of_mem_bitTexts {key : String} (h : key ∈ bitTexts 256) :
    validKey key = .ok () := by
  obtain ⟨hlength,-⟩ := toList_of_mem_bitTexts h
  have hnul := not_containsChar_of_mem_bitTexts h
  have hempty : key.isEmpty = false := by
    rw [← Bool.not_eq_true, String.isEmpty_iff]
    rintro rfl
    cases hlength
  have hcount : ¬256 < Text.charCount key := by
    rw [Text.charCount, hlength]
    exact lt_irrefl _
  unfold validKey
  simp [hnul, hempty, hcount]

/-- Without listed keys more is retained than any machine holds. -/
theorem exists_retained_of_unlisted (plugin : PluginId) (generation : ℕ) {grants : InstanceGrant}
    (audit : AuditSink) (now : ℕ) (hlists : ¬ListsKeys (mergeInherent grants.caps)) :
    ∃ sets, 2^256 ≤ ((Broker.new plugin generation grants audit
      now).stores sets).storage.retainedBytes := by
  simp only [ListsKeys, not_forall, ne_eq, not_not] at hlists
  obtain ⟨maxBytes,hbind⟩ := hlists
  obtain ⟨g,hgrant,hparams⟩ := Option.bind_eq_some_iff.mp hbind
  refine ⟨(bitTexts 256).map (fun key => (key,"")),?_⟩
  have hstored := retains_all_keys (b := Broker.new plugin generation grants audit now) hgrant
    hparams (stocked_new plugin generation grants audit now) (bitTexts 256)
    (fun _ => validKey_of_mem_bitTexts)
  have hweight := OrdMap.le_weight_key (f := Text.byteLen) (nodup_bitTexts 256)
    (fun key hkey => hstored key (Or.inl hkey))
  have hsum : ((bitTexts 256).map Text.byteLen).sum = 2^256 * 256 := by
    rw [List.map_congr_left (g := fun _ => 256) (fun key hkey => byteLen_of_mem_bitTexts hkey),
      List.map_const', List.sum_replicate_nat, length_bitTexts]
  rw [StorageService.retainedBytes_eq]
  omega

/-- The grant gives the store a number of bytes. -/
def GivesBytes (g : Grant) (maxBytes : ℕ) : Prop :=
  g.capability = .storageWrite ∧ ∃ keys, g.params = some (.storage keys maxBytes)

/-- The bytes that one of the grants gives the store, or the default where none gives any. -/
def GrantedBytes (caps : List Grant) (maxBytes : ℕ) : Prop :=
  (∃ g ∈ caps, GivesBytes g maxBytes) ∨
    maxBytes = 64 * 1024 ∧ ∀ g ∈ caps, ∀ n, ¬GivesBytes g n

theorem read_storageMaxBytes (q : Quotas) (g : Grant) :
    GivesBytes g (q.read g).storageMaxBytes ∨
      (q.read g).storageMaxBytes = q.storageMaxBytes ∧ ∀ n, ¬GivesBytes g n := by
  unfold Quotas.read
  split
  · rename_i keys maxBytes hcap hparams
    exact Or.inl ⟨hcap,keys,hparams⟩
  all_goals
    refine Or.inr ⟨rfl,?_⟩
    rintro n ⟨hcap,keys,hparams⟩
    simp_all

theorem foldl_read_storageMaxBytes (caps : List Grant) (q : Quotas) :
    (∃ g ∈ caps, GivesBytes g (caps.foldl Quotas.read q).storageMaxBytes) ∨
      (caps.foldl Quotas.read q).storageMaxBytes = q.storageMaxBytes ∧
        ∀ g ∈ caps, ∀ n, ¬GivesBytes g n := by
  induction caps generalizing q with
  | nil => exact Or.inr ⟨rfl,fun _ hg => absurd hg List.not_mem_nil⟩
  | cons g caps ih =>
    rw [List.foldl_cons]
    rcases ih (q.read g) with ⟨g',hg',hgives⟩ | ⟨hsame,hnone⟩
    · exact Or.inl ⟨g',List.mem_cons_of_mem _ hg',hgives⟩
    · rcases read_storageMaxBytes q g with hgives | ⟨hread,hnot⟩
      · exact Or.inl ⟨g,List.mem_cons_self,hsame ▸ hgives⟩
      · refine Or.inr ⟨hsame.trans hread,fun g' hg' => ?_⟩
        rcases List.mem_cons.mp hg' with rfl | hg'
        · exact hnot
        · exact hnone g' hg'

/-- Merging the inherent capabilities adds no grant that gives bytes. -/
theorem givesBytes_mergeInherent {caps : List Grant} {n : ℕ} :
    (∃ g ∈ mergeInherent caps, GivesBytes g n) ↔ ∃ g ∈ caps, GivesBytes g n := by
  unfold mergeInherent
  generalize capabilityRegistry.filter (fun d => d.exposure = .inherent) = definitions
  induction definitions generalizing caps with
  | nil => rfl
  | cons d definitions ih =>
    rw [List.foldl_cons, ih]
    split_ifs with hany
    · rfl
    · simp [GivesBytes, or_and_right, exists_or]

theorem grantedBytes_new (plugin : PluginId) (generation : ℕ) (grants : InstanceGrant)
    (audit : AuditSink) (now : ℕ) :
    GrantedBytes grants.caps (Broker.new plugin generation grants audit now).storage.maxBytes := by
  rcases foldl_read_storageMaxBytes (mergeInherent grants.caps) ⟨64 * 1024,none,1,0⟩ with
    hgives | ⟨hsame,hnone⟩
  · exact Or.inl (givesBytes_mergeInherent.mp hgives)
  · refine Or.inr ⟨hsame,fun g hg n hgives => ?_⟩
    obtain ⟨g',hg',hgives'⟩ := givesBytes_mergeInherent.mpr ⟨g,hg,hgives⟩
    exact hnone g' hg' n hgives'

/-- The numbers of the grants are machine words and their keys fit in memory. -/
def MachineSized (caps : List Grant) : Prop :=
  ∀ g ∈ caps, ∀ keys maxBytes, g.params = some (.storage keys maxBytes) →
    maxBytes < 2^64 ∧ (keys.map Text.byteLen).sum < 2^64

theorem lt_of_grantedBytes {caps : List Grant} (hsized : MachineSized caps) {maxBytes : ℕ}
    (h : GrantedBytes caps maxBytes) : maxBytes < 2^64 := by
  rcases h with ⟨g,hg,-,keys,hparams⟩ | ⟨rfl,-⟩
  · exact (hsized g hg keys maxBytes hparams).1
  · decide

theorem findGrant_storageWrite (caps : List Grant) :
    findGrant (mergeInherent caps) .storageWrite = findGrant caps .storageWrite := by
  rw [findGrant_mergeInherent]
  simp [CapabilityId.isInherent, CapabilityId.definition]

theorem listedKeys_lt {caps : List Grant} (hsized : MachineSized caps) :
    ((listedKeys caps).map Text.byteLen).sum < 2^64 := by
  unfold listedKeys
  split
  · next keys maxBytes hparams =>
    obtain ⟨g,hgrant,hparams⟩ := Option.bind_eq_some_iff.mp hparams
    exact (hsized g (List.mem_of_find?_eq_some hgrant) keys maxBytes hparams).2
  · decide

/-- What is retained stays within the granted bytes and a constant that a machine can hold, for all
calls, exactly if the grant for storing lists its keys. -/
theorem storage_retained_iff (plugin : PluginId) (generation : ℕ) (grants : InstanceGrant)
    (audit : AuditSink) (now : ℕ) (hsized : MachineSized grants.caps) :
    ∃ maxBytes, GrantedBytes grants.caps maxBytes ∧
      ((∃ extra < 2^64, ∀ sets : List (String × String),
        ((Broker.new plugin generation grants audit now).stores sets).storage.retainedBytes ≤
          maxBytes + extra) ↔ ListsKeys grants.caps) := by
  have hgranted := grantedBytes_new plugin generation grants audit now
  have hlists : ListsKeys (mergeInherent grants.caps) ↔ ListsKeys grants.caps := by
    simp only [ListsKeys, findGrant_storageWrite]
  have hlisted : listedKeys (mergeInherent grants.caps) = listedKeys grants.caps := by
    simp only [listedKeys, findGrant_storageWrite]
  refine ⟨_,hgranted,?_,?_⟩
  · rintro ⟨extra,hextra,hbound⟩
    by_contra hunlisted
    obtain ⟨sets,hsets⟩ :=
      exists_retained_of_unlisted plugin generation audit now (mt hlists.mp hunlisted)
    have hmax := lt_of_grantedBytes hsized hgranted
    have hle := hsets.trans (hbound sets)
    omega
  · intro hkeys
    refine ⟨((listedKeys grants.caps).map Text.byteLen).sum,listedKeys_lt hsized,fun sets => ?_⟩
    rw [← hlisted]
    exact retained_le_of_listed (hlists.mpr hkeys) sets

/-- An instance that may store 1024 bytes under some keys. -/
def notesGrants (keys : List String) : InstanceGrant :=
  ⟨⟨7⟩,[⟨.storageWrite,some (.storage keys 1024),.derivedFromInstall⟩]⟩

/-- The store of an instance after values were stored under keys. -/
def notesStored (keys : List String) (sets : List (String × String)) : StorageService :=
  ((Broker.new ⟨"org.example.notes"⟩ 0 (notesGrants keys) ⟨"org.example.notes",7⟩ 0).stores
    sets).storage

theorem machineSized_notes {keys : List String} (h : (keys.map Text.byteLen).sum < 2^64) :
    MachineSized (notesGrants keys).caps := by
  intro g hg keys' maxBytes hparams
  obtain rfl := List.mem_singleton.mp hg
  cases hparams
  exact ⟨by decide,h⟩

theorem grantedBytes_notes {keys : List String} {maxBytes : ℕ}
    (h : GrantedBytes (notesGrants keys).caps maxBytes) : maxBytes = 1024 := by
  rcases h with ⟨g,hg,-,keys',hparams⟩ | ⟨-,hnone⟩
  · obtain rfl := List.mem_singleton.mp hg
    cases hparams
    rfl
  · exact absurd ⟨rfl,keys,rfl⟩ (hnone _ List.mem_cons_self 1024)

theorem notes_retained_bounded :
    ∃ extra < 2^64, ∀ sets,
      (notesStored ["settings","notes"] sets).retainedBytes ≤ 1024 + extra := by
  have hsized : MachineSized (notesGrants ["settings","notes"]).caps :=
    machineSized_notes (by decide)
  have hlists : ListsKeys (notesGrants ["settings","notes"]).caps := by
    intro maxBytes hparams
    cases hparams
  obtain ⟨maxBytes,hgranted,hiff⟩ := storage_retained_iff ⟨"org.example.notes"⟩ 0 _
    ⟨"org.example.notes",7⟩ 0 hsized
  obtain rfl := grantedBytes_notes hgranted
  exact hiff.mpr hlists

/-- Without listed keys, empty values under ever new keys exceed every constant. -/
theorem notes_retained_unbounded :
    ¬∃ extra < 2^64, ∀ sets, (notesStored [] sets).retainedBytes ≤ 1024 + extra := by
  rintro ⟨extra,hextra,hbound⟩
  have hunlisted : ¬ListsKeys (mergeInherent (notesGrants []).caps) := fun h => h 1024 rfl
  obtain ⟨sets,hsets⟩ := exists_retained_of_unlisted ⟨"org.example.notes"⟩ 0
    ⟨"org.example.notes",7⟩ 0 hunlisted
  have hle := hsets.trans (hbound sets)
  omega

end Broker

end Floatile.Services
