import OlapClient.Cache.Backend
import OlapClient.Proofs.Traversal

/-!
# Calls of a storage

A storage is called to store and to look up, one call after the other. What a lookup is due to
answer depends on the calls before it alone: the response of the latest store under its key. A kind
of storage answers what is due if it keeps, call by call, a picture of the calls so far
(`Faithful`).
-/

namespace OlapClient

/-- A call of a storage. -/
inductive StorageCall where
  | store (now : Moment) (key : ExchangeKey) (response : Bytes)
  | lookup (now : Moment) (key : ExchangeKey)
  deriving DecidableEq, Repr

/-- A response and the nanosecond at which it was stored. -/
structure StoredResponse where
  storedAt : Nat
  response : Bytes
  deriving DecidableEq, Repr

namespace StorageCall

/-- The key that a call is about. -/
def key : StorageCall → ExchangeKey
  | store _ key _ => key
  | lookup _ key => key

/-- What a call leaves under a key where `before` was. -/
def leaves (key : ExchangeKey) (before : Option StoredResponse) :
    StorageCall → Option StoredResponse
  | store now key' response => if key' = key then some ⟨now.clock, response⟩ else before
  | lookup _ _ => before

/-- The latest store under a key. -/
def latest (calls : List StorageCall) (key : ExchangeKey) : Option StoredResponse :=
  calls.foldl (leaves key) none

/-- The response of the latest store under a key. -/
def latestResponse (calls : List StorageCall) (key : ExchangeKey) : Option Bytes :=
  (latest calls key).map (·.response)

/-- What the lookups among further calls are due to answer. -/
def answersDue (before : List StorageCall) : List StorageCall → List (Option Bytes)
  | [] => []
  | store now key response :: rest => answersDue (before ++ [store now key response]) rest
  | lookup now key :: rest =>
    latestResponse before key :: answersDue (before ++ [lookup now key]) rest

theorem latest_concat (calls : List StorageCall) (call : StorageCall) (key : ExchangeKey) :
    latest (calls ++ [call]) key = leaves key (latest calls key) call := List.foldl_concat ..

@[simp] theorem latest_store_self (calls : List StorageCall) (now : Moment) (key : ExchangeKey)
    (response : Bytes) :
    latest (calls ++ [store now key response]) key = some ⟨now.clock, response⟩ := by
  rw [latest_concat, leaves, if_pos rfl]

theorem latest_store_of_ne (calls : List StorageCall) (now : Moment) {key other : ExchangeKey}
    (response : Bytes) (h : other ≠ key) :
    latest (calls ++ [store now key response]) other = latest calls other := by
  rw [latest_concat, leaves, if_neg h.symm]

@[simp] theorem latest_lookup (calls : List StorageCall) (now : Moment) (key other : ExchangeKey) :
    latest (calls ++ [lookup now key]) other = latest calls other := by
  rw [latest_concat, leaves]

/-- Only what was stored can be latest. -/
theorem mem_keys_of_latest {calls : List StorageCall} {key : ExchangeKey} {stored : StoredResponse}
    (h : latest calls key = some stored) : key ∈ calls.map StorageCall.key := by
  induction calls using List.reverseRecOn with
  | nil => cases h
  | append_singleton calls call ih =>
    rw [List.map_append, List.mem_append]
    cases call with
    | lookup now other =>
      rw [latest_lookup] at h
      exact .inl (ih h)
    | store now other response =>
      by_cases hk : key = other
      · exact .inr (by simp [hk, StorageCall.key])
      · rw [latest_store_of_ne calls now response hk] at h
        exact .inl (ih h)

end StorageCall

namespace Backend

variable {κ : Type} [SqlLibrary κ]

/-- The answers of the lookups among calls, made one after the other up to the first that fails. -/
def answers (b : Backend κ) (files : Files) :
    List StorageCall → Except CacheError (List (Option Bytes))
  | [] => .ok []
  | .store now key response :: rest => do
    let (files, b, stored) := b.store files now key response
    stored
    b.answers files rest
  | .lookup now key :: rest => do
    let (files, b, found) := b.lookup files now key
    return (← found) :: (← b.answers files rest)

/-- What is asked of a kind of storage: a picture of the calls so far, by which a lookup answers
what is due, and which each call that is allowed where it stands hands on. -/
structure Faithful (pictures : List StorageCall → Files → Backend κ → Prop)
    (allows : List StorageCall → StorageCall → Prop) : Prop where
  store : ∀ before files b now key response, pictures before files b →
    allows before (.store now key response) →
    ∃ files' b', b.store files now key response = (files', b', .ok ()) ∧
      pictures (before ++ [.store now key response]) files' b'
  lookup : ∀ before files b now key, pictures before files b → allows before (.lookup now key) →
    ∃ files' b', b.lookup files now key =
        (files', b', .ok (StorageCall.latestResponse before key)) ∧
      pictures (before ++ [.lookup now key]) files' b'

/-- All calls are answered as they are due. -/
theorem Faithful.answers {pictures : List StorageCall → Files → Backend κ → Prop}
    {allows : List StorageCall → StorageCall → Prop} (h : Faithful pictures allows)
    (before calls : List StorageCall) (files : Files) (b : Backend κ)
    (hpicture : pictures before files b)
    (hallows : ∀ front call behind,
      calls = front ++ call :: behind → allows (before ++ front) call) :
    b.answers files calls = .ok (StorageCall.answersDue before calls) := by
  induction calls generalizing before files b with
  | nil => rfl
  | cons call calls ih =>
    have hcall : allows before call := by
      have hfirst := hallows [] call calls rfl
      rwa [List.append_nil] at hfirst
    have hrest : ∀ front call' behind, calls = front ++ call' :: behind →
        allows (before ++ [call] ++ front) call' := by
      intro front call' behind hsplit
      have hnext := hallows (call :: front) call' behind (by rw [hsplit, List.cons_append])
      rwa [List.append_assoc, List.singleton_append]
    cases call with
    | store now key response =>
      obtain ⟨files', b', hstore, hpicture'⟩ :=
        h.store before files b now key response hpicture hcall
      rw [Backend.answers, hstore]
      exact ih _ files' b' hpicture' hrest
    | lookup now key =>
      obtain ⟨files', b', hlookup, hpicture'⟩ := h.lookup before files b now key hpicture hcall
      rw [Backend.answers, hlookup]
      simp only [bind, Except.bind, ih _ files' b' hpicture' hrest]
      rfl

end Backend

end OlapClient
