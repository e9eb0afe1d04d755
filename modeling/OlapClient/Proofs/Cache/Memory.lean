import Mathlib.Data.List.Dedup
import OlapClient.Proofs.Cache.Alike
import OlapClient.Proofs.Traversal

/-!
# A memory of what was used last

The store in memory is the front of a list that it does not keep itself: of all keys used since it
was cleared, the one used last in front (`recent`). How far back a key stands in that list is the
number of other keys used since (`mem_take_recent`), so that a key is remembered exactly as long as
fewer of them are used than the store has room for. This holds while nothing outlives its time.
-/

namespace OlapClient

/-- A call of the store in memory, with the clock's nanoseconds where the store looks at it. -/
inductive MemoryCall where
  | store (now : Nat) (key : ExchangeKey) (response : Bytes)
  | lookup (now : Nat) (key : ExchangeKey)
  | clear
  deriving DecidableEq, Repr

/-- A call and its answer; only a lookup has one. -/
structure AnsweredCall where
  call : MemoryCall
  answer : Option Bytes
  deriving DecidableEq, Repr

namespace MemoryCall

/-- Nothing that was stored earlier under a key outlasts the call. -/
def Replaces (key : ExchangeKey) (call : MemoryCall) : Prop :=
  call = .clear ∨ ∃ now response, call = .store now key response

/-- The latest store under a key since the last clear is of this response. -/
def LatestStore (calls : List MemoryCall) (key : ExchangeKey) (response : Bytes) : Prop :=
  ∃ now, LastOf (Replaces key) calls (some (.store now key response))

variable {calls : List MemoryCall} {call : MemoryCall} {key : ExchangeKey}
  {response response' : Bytes}

theorem LatestStore.unique (h : LatestStore calls key response)
    (h' : LatestStore calls key response') : response = response' := by
  obtain ⟨now, h⟩ := h
  obtain ⟨now', h'⟩ := h'
  cases h.unique h'
  rfl

theorem latestStore_nil : ¬ LatestStore [] key response := by
  rintro ⟨now, h⟩
  cases lastOf_nil_iff.mp h

theorem latestStore_concat (h : ¬ Replaces key call) :
    LatestStore (calls ++ [call]) key response ↔ LatestStore calls key response :=
  exists_congr fun _ => lastOf_concat_of_neg h

theorem latestStore_store (now : Nat) :
    LatestStore (calls ++ [.store now key response]) key response :=
  ⟨now, (lastOf_concat_of_pos (.inr ⟨now, response, rfl⟩)).mpr rfl⟩

theorem not_replaces_lookup {now : Nat} {other : ExchangeKey} :
    ¬ Replaces key (.lookup now other) := by simp [Replaces]

theorem latestStore_clear : ¬ LatestStore (calls ++ [.clear]) key response := by
  rintro ⟨now, h⟩
  cases h.eq_of_concat (.inl rfl)

end MemoryCall

open MemoryCall

/-! ### Uses -/

namespace AnsweredCall

/-- The key that a call uses: that of a store, or that of a lookup with success. -/
def used : AnsweredCall → Option ExchangeKey
  | ⟨.store _ key _, _⟩ => some key
  | ⟨.lookup _ key, some _⟩ => some key
  | ⟨.lookup _ _, none⟩ | ⟨.clear, _⟩ => none

/-- The keys used since a key was, the last one first, each as often as it was used. -/
def usedSince (past : List AnsweredCall) (key : ExchangeKey) : List ExchangeKey :=
  (past.reverse.filterMap used).takeWhile (· != key)

/-- What a call makes of the keys used so far, the one used last in front. -/
def movesToFront (keys : List ExchangeKey) (a : AnsweredCall) : List ExchangeKey :=
  match a.used with
  | some key => key :: keys.filter (· != key)
  | none => if a.call = .clear then [] else keys

/-- The keys used since the last clear, the one used last in front. -/
def recent (past : List AnsweredCall) : List ExchangeKey := past.foldl movesToFront []

variable {past : List AnsweredCall} {a : AnsweredCall} {key other : ExchangeKey}

theorem not_replaces_of_used (h : a.used = some key) (hne : other ≠ key) :
    ¬ Replaces other a.call := by
  obtain ⟨call, answer⟩ := a
  rintro (rfl | ⟨now, response, rfl⟩)
  · cases h
  · cases h
    exact hne rfl

theorem recent_concat_of_used (h : a.used = some key) :
    recent (past ++ [a]) = key :: (recent past).filter (· != key) := by
  rw [recent, List.foldl_concat, movesToFront, h]
  rfl

theorem recent_concat_of_unused (h : a.used = none) (hclear : a.call ≠ .clear) :
    recent (past ++ [a]) = recent past := by
  rw [recent, List.foldl_concat, movesToFront, h]
  exact if_neg hclear

theorem recent_clear (answer : Option Bytes) : recent (past ++ [⟨.clear, answer⟩]) = [] := by
  rw [recent, List.foldl_concat]
  rfl

theorem usedSince_concat_of_unused (h : a.used = none) :
    usedSince (past ++ [a]) key = usedSince past key := by
  rw [usedSince, List.reverse_concat, List.filterMap_cons_none h]
  rfl

theorem usedSince_concat_self (h : a.used = some key) : usedSince (past ++ [a]) key = [] := by
  rw [usedSince, List.reverse_concat, List.filterMap_cons_some h]
  exact List.takeWhile_cons_of_neg (by simp)

theorem usedSince_concat_of_ne (h : a.used = some other) (hne : key ≠ other) :
    usedSince (past ++ [a]) key = other :: usedSince past key := by
  rw [usedSince, List.reverse_concat, List.filterMap_cons_some h]
  exact List.takeWhile_cons_of_pos (by simpa using hne.symm)

theorem nodup_recent (past : List AnsweredCall) : (recent past).Nodup := by
  induction past using List.reverseRecOn with
  | nil => exact List.nodup_nil
  | append_singleton past a ih =>
    cases hused : a.used with
    | some key =>
      rw [recent_concat_of_used hused, List.nodup_cons]
      exact ⟨by simp, ih.filter _⟩
    | none =>
      by_cases hclear : a.call = .clear
      · obtain ⟨call, answer⟩ := a
        obtain rfl : call = .clear := hclear
        rw [recent_clear]
        exact List.nodup_nil
      · rwa [recent_concat_of_unused hused hclear]

/-- In front of a key stand those that were used since. -/
theorem recent_split (h : key ∈ recent past) :
    ∃ front behind, recent past = front ++ key :: behind ∧
      ∀ other, other ∈ front ↔ other ∈ usedSince past key := by
  induction past using List.reverseRecOn with
  | nil => cases h
  | append_singleton past a ih =>
    cases hused : a.used with
    | some last =>
      rw [recent_concat_of_used hused] at h ⊢
      by_cases hkey : key = last
      · obtain rfl := hkey
        exact ⟨[], _, rfl, fun other => by rw [usedSince_concat_self hused]⟩
      · have hpast : key ∈ recent past := by simpa [hkey] using h
        obtain ⟨front, behind, hsplit, hfront⟩ := ih hpast
        refine ⟨last :: front.filter (· != last), behind.filter (· != last), ?_, fun other => ?_⟩
        · rw [hsplit, List.filter_append, List.filter_cons_of_pos (by simpa using hkey),
            List.cons_append]
        · rw [usedSince_concat_of_ne hused hkey, List.mem_cons, List.mem_cons, ← hfront other,
            List.mem_filter, bne_iff_ne]
          by_cases hother : other = last <;> simp [hother]
    | none =>
      by_cases hclear : a.call = .clear
      · obtain ⟨call, answer⟩ := a
        obtain rfl : call = .clear := hclear
        rw [recent_clear] at h
        cases h
      · rw [recent_concat_of_unused hused hclear] at h ⊢
        rw [usedSince_concat_of_unused hused]
        exact ih h

/-- A key is among the first ones exactly if fewer others were used since. -/
theorem mem_take_recent (room : Nat) (key : ExchangeKey) :
    key ∈ (recent past).take room ↔
      key ∈ recent past ∧ (usedSince past key).dedup.length < room := by
  by_cases h : key ∈ recent past
  · obtain ⟨front, behind, hsplit, hfront⟩ := recent_split h
    have hnodup := nodup_recent past
    rw [hsplit] at hnodup
    have hlength : (usedSince past key).dedup.length = front.length :=
      ((List.perm_ext_iff_of_nodup (List.nodup_dedup _) hnodup.of_append_left).mpr
        fun other => by rw [List.mem_dedup, hfront]).length_eq
    have hfree : key ∉ front := fun hmem =>
      (List.disjoint_of_nodup_append hnodup) hmem List.mem_cons_self
    rw [hlength, hsplit, List.take_append, List.mem_append]
    constructor
    · rintro (hmem | hmem)
      · exact absurd (List.mem_of_mem_take hmem) hfree
      · refine ⟨by simp, ?_⟩
        by_contra hle
        rw [Nat.sub_eq_zero_of_le (Nat.le_of_not_lt hle)] at hmem
        cases hmem
    · rintro ⟨-, hlt⟩
      obtain ⟨n, hn⟩ := Nat.exists_eq_add_of_lt hlt
      exact .inr (by rw [hn, Nat.add_assoc, Nat.add_sub_cancel_left]; exact List.mem_cons_self)
  · exact ⟨fun hmem => absurd (List.mem_of_mem_take hmem) h, fun hmem => absurd hmem.1 h⟩

end AnsweredCall

open AnsweredCall

/-- Where elements are kept once, it does not matter whether the front is cut before or after one of
them leaves, provided that one more was kept before. -/
theorem take_filter_take {α : Type} [BEq α] [LawfulBEq α] (gone : α) {l : List α} (h : l.Nodup)
    (n : Nat) :
    ((l.take (n + 1)).filter (· != gone)).take n = (l.filter (· != gone)).take n := by
  induction l generalizing n with
  | nil => rfl
  | cons a l ih =>
    obtain ⟨ha, hl⟩ := List.nodup_cons.mp h
    rw [List.take_succ_cons]
    by_cases hgone : a = gone
    · obtain rfl := hgone
      have hstays : ∀ b ∈ l, (b != a) = true := fun b hb => by
        rw [bne_iff_ne]
        rintro rfl
        exact ha hb
      rw [List.filter_cons_of_neg (by simp), List.filter_cons_of_neg (by simp),
        List.filter_eq_self.mpr hstays,
        List.filter_eq_self.mpr fun b hb => hstays b (List.mem_of_mem_take hb), List.take_take,
        Nat.min_self]
    · rw [List.filter_cons_of_pos (by simpa using hgone),
        List.filter_cons_of_pos (by simpa using hgone)]
      cases n with
      | zero => rfl
      | succ n => rw [List.take_succ_cons, List.take_succ_cons, ih hl n]

/-! ### Calls -/

namespace MemoryStore

/-- A call of the store. -/
def call (m : MemoryStore) : MemoryCall → MemoryStore × Option Bytes
  | .store now key response => (m.store now key response, none)
  | .lookup now key => m.lookup now key
  | .clear => (m.clear, none)

/-- The store after calls. -/
def after (m : MemoryStore) : List MemoryCall → MemoryStore
  | [] => m
  | call :: calls => (m.call call).1.after calls

/-- Calls with their answers. -/
def history (m : MemoryStore) : List MemoryCall → List AnsweredCall
  | [] => []
  | call :: calls => ⟨call, (m.call call).2⟩ :: (m.call call).1.history calls

/-- No lookup comes upon an exchange that outlived its time. -/
def NothingExpires (m : MemoryStore) (calls : List MemoryCall) : Prop :=
  ∀ front now key behind, calls = front ++ .lookup now key :: behind →
    ∀ entry ∈ (m.after front).entries, entry.key = key →
      (m.after front).isExpired now entry = false

variable {m : MemoryStore} {calls : List MemoryCall} {past : List AnsweredCall}

theorem after_concat (m : MemoryStore) (calls : List MemoryCall) (call : MemoryCall) :
    m.after (calls ++ [call]) = ((m.after calls).call call).1 := by
  induction calls generalizing m with
  | nil => rfl
  | cons first calls ih => exact ih _

theorem history_concat (m : MemoryStore) (calls : List MemoryCall) (call : MemoryCall) :
    m.history (calls ++ [call]) =
      m.history calls ++ [⟨call, ((m.after calls).call call).2⟩] := by
  induction calls generalizing m with
  | nil => rfl
  | cons first calls ih => exact congrArg (_ :: ·) (ih _)

@[simp] theorem history_calls (m : MemoryStore) (calls : List MemoryCall) :
    (m.history calls).map (·.call) = calls := by
  induction calls generalizing m with
  | nil => rfl
  | cons call calls ih => exact congrArg (call :: ·) (ih _)

theorem call_settings (m : MemoryStore) (call : MemoryCall) :
    (m.call call).1.capacity = m.capacity ∧ (m.call call).1.lifetime = m.lifetime := by
  cases call with
  | store now key response => exact ⟨rfl, rfl⟩
  | lookup now key =>
    rw [MemoryStore.call, lookup]
    split
    · exact ⟨rfl, rfl⟩
    · split <;> exact ⟨rfl, rfl⟩
  | clear => exact ⟨rfl, rfl⟩

theorem after_settings (m : MemoryStore) (calls : List MemoryCall) :
    (m.after calls).capacity = m.capacity ∧ (m.after calls).lifetime = m.lifetime := by
  induction calls generalizing m with
  | nil => exact ⟨rfl, rfl⟩
  | cons call calls ih =>
    obtain ⟨hcapacity, hlifetime⟩ := m.call_settings call
    exact ⟨(ih _).1.trans hcapacity, (ih _).2.trans hlifetime⟩

/-- The entry that is looked up leaves its place free. -/
theorem others_length_lt {entry : MemoryEntry} (h : entry ∈ m.entries) :
    (m.others entry.key).length < m.entries.length :=
  List.length_filter_lt_length_iff_exists.mpr ⟨entry, h, by simp⟩

theorem call_size_le (call : MemoryCall) (h : m.size ≤ m.capacity) :
    (m.call call).1.size ≤ m.capacity := by
  cases call with
  | store now key response => exact List.length_take_le ..
  | lookup now key =>
    rw [MemoryStore.call, lookup]
    cases hfind : m.entries.find? fun entry => entry.key == key with
    | none => exact h
    | some entry =>
      have hkey : entry.key = key := by simpa using List.find?_some hfind
      have hlt := hkey ▸ others_length_lt (List.mem_of_find?_eq_some hfind)
      by_cases hexpired : m.isExpired now entry = true
      · simp only [hexpired, if_true]
        exact hlt.le.trans h
      · simp only [hexpired]
        exact (Nat.succ_le_of_lt hlt).trans h
  | clear => exact Nat.zero_le _

/-- A store never holds more than it has room for. -/
theorem after_size_le (calls : List MemoryCall) (h : m.size ≤ m.capacity) :
    (m.after calls).size ≤ m.capacity := by
  induction calls generalizing m with
  | nil => exact h
  | cons call calls ih =>
    have hcapacity := (m.call_settings call).1
    exact (ih (hcapacity.symm ▸ call_size_le call h)).trans hcapacity.le

theorem NothingExpires.of_append {behind : List MemoryCall}
    (h : m.NothingExpires (calls ++ behind)) : m.NothingExpires calls := by
  rintro front now key rest rfl
  exact h front now key (rest ++ behind) (by simp)

/-- Nothing expires before the clock has run for the lifetime of an exchange. -/
theorem nothingExpires_of_clock
    (h : ∀ now key, MemoryCall.lookup now key ∈ calls → now ≤ m.lifetime.nanoseconds) :
    m.NothingExpires calls := by
  rintro front now key behind rfl entry - -
  have hnow := h now key (by simp)
  rw [isExpired, decide_eq_false_iff_not, Nat.not_lt, (m.after_settings front).2]
  exact (Nat.sub_le ..).trans hnow

/-- What a store knows of the calls so far: the latest responses under the keys used last. -/
structure Remembers (m : MemoryStore) (past : List AnsweredCall) : Prop where
  keys : m.entries.map (·.key) = (recent past).take m.capacity
  latest : ∀ entry ∈ m.entries, LatestStore (past.map (·.call)) entry.key entry.response
  stored : ∀ key response, LatestStore (past.map (·.call)) key response → key ∈ recent past

theorem remembers_nil (h : m.entries = []) : m.Remembers [] where
  keys := by
    rw [h]
    exact (List.take_nil).symm
  latest := fun entry hentry => by
    rw [h] at hentry
    cases hentry
  stored := fun _ _ hlatest => absurd hlatest latestStore_nil

theorem Remembers.length_le (h : m.Remembers past) : m.entries.length ≤ m.capacity := by
  rw [← List.length_map (·.key), h.keys]
  exact List.length_take_le ..

/-- Whatever calls a key uses, its entry comes to the front, and there is room for one less of the
others. -/
theorem Remembers.used (h : m.Remembers past) (hcapacity : 0 < m.capacity) {a : AnsweredCall}
    {entry : MemoryEntry} (hused : a.used = some entry.key)
    (hlatest : LatestStore ((past ++ [a]).map (·.call)) entry.key entry.response) :
    ({ m with entries := (entry :: m.others entry.key).take m.capacity } :
      MemoryStore).Remembers (past ++ [a]) := by
  obtain ⟨room, hroom⟩ := Nat.exists_eq_add_of_lt hcapacity
  have hroom : m.capacity = room + 1 := by rw [hroom, Nat.zero_add]
  have hkept : ∀ {other response}, other ≠ entry.key →
      (LatestStore ((past ++ [a]).map (·.call)) other response ↔
        LatestStore (past.map (·.call)) other response) := fun hne => by
    rw [List.map_append]
    exact latestStore_concat (not_replaces_of_used hused hne)
  refine ⟨?_, fun other hother => ?_, fun key response hstored => ?_⟩
  · have hothers : (m.others entry.key).map (·.key) =
        (m.entries.map (·.key)).filter (· != entry.key) := by
      rw [List.filter_map]
      rfl
    rw [recent_concat_of_used hused, List.map_take, List.map_cons, hothers, h.keys]
    dsimp only
    rw [hroom, List.take_succ_cons, List.take_succ_cons, take_filter_take _ (nodup_recent past)]
  · rcases List.mem_cons.mp (List.mem_of_mem_take hother) with rfl | hother
    · exact hlatest
    · obtain ⟨hmem, hne⟩ := (mem_others other).mp hother
      exact (hkept hne).mpr (h.latest other hmem)
  · rw [recent_concat_of_used hused, List.mem_cons, List.mem_filter, bne_iff_ne]
    by_cases hkey : key = entry.key
    · exact .inl hkey
    · exact .inr ⟨h.stored key response ((hkept hkey).mp hstored), hkey⟩

theorem Remembers.missed (h : m.Remembers past) (now : Nat) (key : ExchangeKey) :
    m.Remembers (past ++ [⟨.lookup now key, none⟩]) := by
  have hrecent : recent (past ++ [⟨.lookup now key, none⟩]) = recent past :=
    recent_concat_of_unused rfl (by simp)
  have hkept : ∀ other response,
      LatestStore ((past ++ [(⟨.lookup now key, none⟩ : AnsweredCall)]).map (·.call)) other
        response ↔ LatestStore (past.map (·.call)) other response := fun other response => by
    rw [List.map_append]
    exact latestStore_concat not_replaces_lookup
  refine ⟨by rw [hrecent, h.keys], fun entry hentry => ?_, fun other response hstored => ?_⟩
  · exact (hkept _ _).mpr (h.latest entry hentry)
  · rw [hrecent]
    exact h.stored other response ((hkept other response).mp hstored)

theorem Remembers.cleared : m.clear.Remembers (past ++ [⟨.clear, none⟩]) where
  keys := by
    rw [recent_clear]
    exact (List.take_nil).symm
  latest := fun _ hentry => nomatch hentry
  stored := fun _ _ hstored => by
    rw [List.map_append] at hstored
    exact absurd hstored latestStore_clear

/-- What is found comes to the front, and nothing has to leave for it. -/
theorem lookup_found (h : m.Remembers past) {entry : MemoryEntry} {now : Nat} {key : ExchangeKey}
    (hfind : m.entries.find? (fun entry => entry.key == key) = some entry)
    (hfresh : m.isExpired now entry = false) :
    m.lookup now key =
      ({ m with entries := (entry :: m.others entry.key).take m.capacity },
        some entry.response) := by
  have hmem : entry ∈ m.entries := List.mem_of_find?_eq_some hfind
  have hkey : entry.key = key := by simpa using List.find?_some hfind
  have hlt := (others_length_lt hmem).trans_le h.length_le
  rw [List.take_of_length_le (Nat.succ_le_of_lt hlt), lookup, hfind, hkey]
  simp only [hfresh]
  rfl

theorem lookup_missed {now : Nat} {key : ExchangeKey}
    (hfind : m.entries.find? (fun entry => entry.key == key) = none) :
    m.lookup now key = (m, none) := by rw [lookup, hfind]

/-- One call keeps what is known. -/
theorem Remembers.call (h : m.Remembers past) (hcapacity : 0 < m.capacity) (call : MemoryCall)
    (hfresh : ∀ now key, call = .lookup now key → ∀ entry ∈ m.entries, entry.key = key →
      m.isExpired now entry = false) :
    (m.call call).1.Remembers (past ++ [⟨call, (m.call call).2⟩]) := by
  cases call with
  | store now key response =>
    have hused : (⟨.store now key response, none⟩ : AnsweredCall).used =
        some (⟨key, response, now⟩ : MemoryEntry).key := rfl
    refine h.used hcapacity hused ?_
    rw [List.map_append]
    exact latestStore_store now
  | lookup now key =>
    rw [MemoryStore.call]
    cases hfind : m.entries.find? fun entry => entry.key == key with
    | none =>
      rw [lookup_missed hfind]
      exact h.missed now key
    | some entry =>
      have hmem : entry ∈ m.entries := List.mem_of_find?_eq_some hfind
      have hkey : entry.key = key := by simpa using List.find?_some hfind
      rw [lookup_found h hfind (hfresh now key rfl entry hmem hkey)]
      refine h.used hcapacity (by rw [hkey]; rfl) ?_
      rw [List.map_append]
      exact (latestStore_concat not_replaces_lookup).mpr (h.latest entry hmem)
  | clear => exact Remembers.cleared

/-- All calls keep what is known. -/
theorem remembers_after (hempty : m.entries = []) (hcapacity : 0 < m.capacity)
    (calls : List MemoryCall) (hlive : m.NothingExpires calls) :
    (m.after calls).Remembers (m.history calls) := by
  induction calls using List.reverseRecOn with
  | nil => exact remembers_nil hempty
  | append_singleton calls call ih =>
    rw [after_concat, history_concat]
    refine (ih hlive.of_append).call (by rwa [(m.after_settings calls).1]) call ?_
    rintro now key rfl
    exact hlive calls now key [] rfl

/-- A lookup finds the latest response under a key that was used lately. -/
theorem Remembers.lookup_eq_some_iff (h : m.Remembers past) {now : Nat} {key : ExchangeKey}
    (hfresh : ∀ entry ∈ m.entries, entry.key = key → m.isExpired now entry = false)
    (response : Bytes) :
    (m.lookup now key).2 = some response ↔
      LatestStore (past.map (·.call)) key response ∧
        (usedSince past key).dedup.length < m.capacity := by
  have hkept : (∃ entry ∈ m.entries, entry.key = key) ↔ key ∈ (recent past).take m.capacity := by
    rw [← h.keys, List.mem_map]
  rw [mem_take_recent] at hkept
  cases hfind : m.entries.find? fun entry => entry.key == key with
  | none =>
    rw [lookup_missed hfind]
    constructor
    · intro hsome
      cases hsome
    rintro ⟨hstored, hfew⟩
    obtain ⟨entry, hentry, hkey⟩ := hkept.mpr ⟨h.stored key response hstored, hfew⟩
    exact absurd (beq_iff_eq.mpr hkey) (by simpa using List.find?_eq_none.mp hfind entry hentry)
  | some entry =>
    have hmem : entry ∈ m.entries := List.mem_of_find?_eq_some hfind
    have hkey : entry.key = key := by simpa using List.find?_some hfind
    have hlatest : LatestStore (past.map (·.call)) key entry.response :=
      hkey ▸ h.latest entry hmem
    rw [lookup_found h hfind (hfresh entry hmem hkey), Option.some_inj]
    constructor
    · rintro rfl
      exact ⟨hlatest, (hkept.mp ⟨entry, hmem, hkey⟩).2⟩
    · exact fun hstored => hlatest.unique hstored.1

/-- A store never holds more than it has room for. As long as nothing expires, a lookup finds a
response exactly if that is of the latest store under its key since the last clear, and fewer other
keys than there is room for were stored or found since the key was. -/
theorem lookup_finds_recent (s : MemorySettings) (calls : List MemoryCall) :
    (∀ front behind, calls = front ++ behind →
      ((ofSettings s).after front).size ≤ max 1 s.capacity) ∧
    ((ofSettings s).NothingExpires calls →
      ∀ front now key behind, calls = front ++ .lookup now key :: behind → ∀ response,
        (((ofSettings s).after front).lookup now key).2 = some response ↔
          LatestStore front key response ∧
            (usedSince ((ofSettings s).history front) key).dedup.length < max 1 s.capacity) := by
  refine ⟨fun front _ _ => after_size_le front (Nat.zero_le _), ?_⟩
  rintro hlive front now key behind rfl response
  have hroom : 0 < (ofSettings s).capacity := Nat.le_max_left ..
  have hremembers : ((ofSettings s).after front).Remembers ((ofSettings s).history front) :=
    remembers_after rfl hroom front hlive.of_append
  have hfresh := hlive front now key behind rfl
  rw [hremembers.lookup_eq_some_iff hfresh, history_calls, ((ofSettings s).after_settings front).1]
  rfl

/-- Three keys in a store with room for two: the second one gives way to the third one, since the
first one was found in between; what is not found and what is replaced drives nothing out. -/
def crowdedCalls : List MemoryCall :=
  [.store 1 ("u", [1]) [10], .store 2 ("u", [2]) [20], .lookup 3 ("u", [1]),
    .lookup 4 ("v", [1]), .store 5 ("u", [3]) [30], .store 6 ("u", [3]) [31],
    .lookup 7 ("u", [2]), .lookup 8 ("u", [1]), .clear, .lookup 9 ("u", [1])]

theorem crowdedCalls_found :
    (ofSettings { capacity := 2 }).NothingExpires crowdedCalls ∧
      LatestStore (crowdedCalls.take 7) ("u", [1]) [10] ∧
      (((ofSettings { capacity := 2 }).after (crowdedCalls.take 7)).lookup 8 ("u", [1])).2 =
        some [10] ∧
      ∀ response, (((ofSettings { capacity := 2 }).after (crowdedCalls.take 6)).lookup 7
        ("u", [2])).2 ≠ some response := by
  have hlive : (ofSettings { capacity := 2 }).NothingExpires crowdedCalls := by
    refine nothingExpires_of_clock fun now key hmem => ?_
    have hnow : now ≤ 9 := by
      simp only [crowdedCalls, List.mem_cons, MemoryCall.lookup.injEq, reduceCtorEq,
        List.not_mem_nil, or_false, false_or] at hmem
      omega
    exact hnow.trans (by decide)
  have hlatest : LatestStore (crowdedCalls.take 7) ("u", [1]) [10] :=
    ⟨1, [], (crowdedCalls.take 7).tail, rfl, .inr ⟨1, [10], rfl⟩, by simp [crowdedCalls, Replaces]⟩
  obtain ⟨-, hfinds⟩ := lookup_finds_recent { capacity := 2 } crowdedCalls
  refine ⟨hlive, hlatest, ?_, fun response hfound => ?_⟩
  · exact (hfinds hlive _ 8 ("u", [1]) _ rfl [10]).mpr ⟨hlatest, by decide⟩
  · obtain ⟨-, hfew⟩ := (hfinds hlive _ 7 ("u", [2]) _ rfl response).mp hfound
    exact absurd hfew (by decide)

end MemoryStore

end OlapClient
