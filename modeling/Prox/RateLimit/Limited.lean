import Prox.RateLimit.InMemory

/-! # Windows of the in-memory rate limiter

A queue holds the last accepted times of its key, up to the limit. A pass of the cleaner forgets them; that
is harmless exactly when it forgets only times that are a whole duration ago, which depends on the
expiration the first `Init` came with. -/

namespace Prox

open InMemoryRateLimiter List Option

/-- The accepted times that a queue of a key may have forgotten are a whole duration ago. -/
def QueueHolds (m d now : Int) (times : List Int) : Option (List Int) → Prop
  | none => ∀ t ∈ times, t + d ≤ now
  | some queue =>
    queue ≠ [] ∧ (queue.length : Int) ≤ m ∧ ∃ old, times = queue.reverse ++ old ∧
      ((queue.length : Int) < m → ∀ t ∈ old, ∀ s ∈ queue, t + d ≤ s)

/-- The state of a key between two events. -/
structure KeyInv (key : String) (m d expiration : Int) (w : LimiterWorld) : Prop where
  sorted : (acceptedTimes key w.history).Pairwise (· ≥ ·)
  past : ∀ t ∈ acceptedTimes key w.history, t ≤ unixSeconds w.clock
  expiration_eq : w.limiter.expirationDuration = expiration
  cleaner : w.sleepUntil ≠ none → 0 < expiration
  queue : ∃ store, w.limiter.store = some store ∧
    QueueHolds m d (unixSeconds w.clock) (acceptedTimes key w.history) (store key)
  limited : RateLimited key m d w.history

section Queue

variable {m d now now' : Int} {times old queue rest : List Int} {oldest : Int}

theorem QueueHolds.mono {q : Option (List Int)} (h : QueueHolds m d now times q) (hle : now ≤ now') :
    QueueHolds m d now' times q := by
  cases q with
  | none => exact fun t ht => Int.le_trans (h t ht) hle
  | some queue => exact h

/-- A key without a queue has no recent requests. -/
theorem QueueHolds.recent_none (h : QueueHolds m d now times none) : recent now d times = 0 :=
  recent_eq_zero h

/-- A queue with room holds all recent requests. -/
theorem QueueHolds.recent_room (h : QueueHolds m d now times (some queue)) (hpast : ∀ t ∈ times, t ≤ now)
    (hroom : (queue.length : Int) < m) : recent now d times < m := by
  obtain ⟨hne, -, old, rfl, hold⟩ := h
  obtain ⟨s, hs⟩ := exists_mem_of_ne_nil queue hne
  have hs' : s ≤ now := hpast s (mem_append_left _ (mem_reverse.mpr hs))
  have hzero : recent now d old = 0 := recent_eq_zero fun t ht => Int.le_trans (hold hroom t ht s hs) hs'
  have hlen : recent now d queue.reverse ≤ queue.reverse.length := recent_le_length
  rw [recent_append]
  rw [length_reverse] at hlen
  omega

/-- A full queue whose oldest entry is a whole duration ago leaves room for one recent request. -/
theorem QueueHolds.recent_full (h : QueueHolds m d now times (some (oldest :: rest)))
    (hsorted : times.Pairwise (· ≥ ·)) (hage : now - oldest ≥ d) : recent now d times < m := by
  obtain ⟨-, hlen, old, rfl, -⟩ := h
  rw [reverse_cons, append_assoc] at hsorted ⊢
  have hold : ∀ t ∈ [oldest] ++ old, t + d ≤ now := fun t ht => by
    rcases mem_append.mp ht with ht | ht
    · rw [mem_singleton] at ht
      omega
    · -- what the queue has dropped is older than its oldest entry
      have := (pairwise_append.mp (pairwise_append.mp hsorted).2.1).2.2 oldest
        (mem_singleton_self _) t ht
      omega
  have hrest : recent now d rest.reverse ≤ rest.reverse.length := recent_le_length
  rw [recent_append, recent_eq_zero hold]
  rw [length_reverse] at hrest
  rw [length_cons] at hlen
  omega

/-- A full queue whose oldest entry is recent has as many recent requests as the limit. -/
theorem QueueHolds.le_recent (h : QueueHolds m d now times (some (oldest :: rest)))
    (hsorted : times.Pairwise (· ≥ ·)) (hpast : ∀ t ∈ times, t ≤ now)
    (hfull : ¬ ((oldest :: rest).length : Int) < m) (hage : ¬ now - oldest ≥ d) : m ≤ recent now d times := by
  obtain ⟨-, -, old, rfl, -⟩ := h
  have hall : ∀ t ∈ (oldest :: rest).reverse, now - d < t ∧ t ≤ now := fun t ht => by
    refine ⟨?_, hpast t (mem_append_left _ ht)⟩
    have hqueue := (pairwise_append.mp hsorted).1
    rw [pairwise_reverse, pairwise_cons] at hqueue
    rw [mem_reverse, mem_cons] at ht
    rcases ht with rfl | ht
    · omega
    · have := hqueue.1 t ht
      omega
  rw [recent_append, recent_eq_length hall, length_reverse]
  have hnonneg : 0 ≤ recent now d old := Int.natCast_nonneg _
  omega

theorem QueueHolds.first (h : QueueHolds m d now times none) (hm : 1 ≤ m) :
    QueueHolds m d now (now :: times) (some [now]) := by
  refine ⟨cons_ne_nil _ _, by simpa using hm, times, rfl, fun _ t ht s hs => ?_⟩
  rw [mem_singleton.mp hs]
  exact h t ht

/-- The queue after a request that finds room. -/
theorem QueueHolds.push (h : QueueHolds m d now times (some queue)) (hpast : ∀ t ∈ times, t ≤ now)
    (hroom : (queue.length : Int) < m) :
    QueueHolds m d now (now :: times) (some (queue ++ [now])) := by
  obtain ⟨hne, -, old, rfl, hold⟩ := h
  obtain ⟨s₀, hs₀⟩ := exists_mem_of_ne_nil queue hne
  have hs₀' : s₀ ≤ now := hpast s₀ (mem_append_left _ (mem_reverse.mpr hs₀))
  refine ⟨by simp, ?_, old, by simp, fun _ t ht s hs => ?_⟩
  · rw [length_append, length_singleton]
    omega
  · rcases mem_append.mp hs with hs | hs
    · exact hold hroom t ht s hs
    · rw [mem_singleton.mp hs]
      exact Int.le_trans (hold hroom t ht s₀ hs₀) hs₀'

/-- The queue after a request that takes the place of the oldest entry. -/
theorem QueueHolds.shift (h : QueueHolds m d now times (some (oldest :: rest)))
    (hfull : ¬ ((oldest :: rest).length : Int) < m) :
    QueueHolds m d now (now :: times) (some (rest ++ [now])) := by
  obtain ⟨-, hlen, old, rfl, -⟩ := h
  have hlen' : (rest ++ [now]).length = (oldest :: rest).length := by simp
  refine ⟨by simp, hlen' ▸ hlen, oldest :: old, by simp, fun hroom => ?_⟩
  rw [hlen'] at hroom
  exact absurd hroom hfull

/-- A queue that expires holds nothing of the last duration, when the expiration is long enough. -/
theorem QueueHolds.expire {seconds : Int} (h : QueueHolds m d now times (some queue))
    (hsorted : times.Pairwise (· ≥ ·)) (hseconds : d ≤ seconds + 1)
    (hexpired : expired seconds now queue = true) : QueueHolds m d now times none := by
  obtain ⟨hne, -, old, rfl, -⟩ := h
  rw [expired, List.getLast?_eq_getLast_of_ne_nil hne] at hexpired
  have hlast : seconds < now - queue.getLast hne := of_decide_eq_true hexpired
  intro t ht
  -- the last entry of the queue is the latest of all
  have hle : t ≤ queue.getLast hne := by
    have hreverse : queue.reverse = queue.getLast hne :: queue.dropLast.reverse := by
      conv_lhs => rw [← dropLast_append_getLast hne, reverse_append]
      rfl
    rw [hreverse] at hsorted ht
    rcases mem_cons.mp ht with rfl | ht
    · exact Int.le_refl _
    · exact (pairwise_cons.mp hsorted).1 t ht
  omega

/-- A pass of the cleaner keeps what a queue holds, when the expiration is long enough. -/
theorem QueueHolds.clear {seconds : Int} {q : Option (List Int)} (h : QueueHolds m d now times q)
    (hsorted : times.Pairwise (· ≥ ·)) (hseconds : d ≤ seconds + 1) :
    QueueHolds m d now times (q.filter fun queue => !expired seconds now queue) := by
  cases q with
  | none => exact h
  | some queue =>
    cases hexpired : expired seconds now queue with
    | true =>
      simp only [filter_some, hexpired]
      exact h.expire hsorted hseconds hexpired
    | false =>
      simp only [filter_some, hexpired]
      exact h

end Queue

/-! ## Steps -/

variable {l : InMemoryRateLimiter} {store : String → Option (List Int)}

section Step

variable {key key' : String} {m d m' d' expiration now : Int} {w : LimiterWorld} {a : RateAnswer}
  {history : List RateAnswer}

theorem acceptedTimes_cons : acceptedTimes key (a :: history)
    = if a.key = key ∧ a.allowed then a.time :: acceptedTimes key history else acceptedTimes key history := by
  by_cases h : a.key = key ∧ a.allowed = true <;> simp [acceptedTimes, h]

/-- The first request of a key is accepted. -/
theorem InMemoryRateLimiter.request_first (now d : Int) (hstore : l.store = some store)
    (hkey : store key = none) (hm : 0 ≤ m) :
    l.request now key m d = some (true, { l with store := some (Function.update store key (some [now])) }) := by
  simp [request, hstore, hkey, if_neg (Int.not_lt.mpr hm)]

/-- A request that finds room in the queue is accepted. -/
theorem InMemoryRateLimiter.request_room {queue : List Int} (now d : Int)
    (hstore : l.store = some store) (hkey : store key = some queue)
    (hroom : (queue.length : Int) < m) :
    l.request now key m d
      = some (true, { l with store := some (Function.update store key (some (queue ++ [now]))) }) := by
  simp [request, hstore, hkey, if_pos hroom]

/-- What a request of a key does: it is accepted with a new queue, with room, or in the place of the oldest
entry, it is rejected, or it panics. -/
theorem InMemoryRateLimiter.request_cases (hstore : l.store = some store) (now : Int) (key : String)
    (m d : Int) :
    l.request now key m d = none ∨
    (store key = none ∧ l.request now key m d
      = some (true, { l with store := some (Function.update store key (some [now])) })) ∨
    (∃ queue, store key = some queue ∧ (queue.length : Int) < m ∧ l.request now key m d
      = some (true, { l with store := some (Function.update store key (some (queue ++ [now]))) })) ∨
    (∃ oldest rest, store key = some (oldest :: rest) ∧ ¬ ((oldest :: rest).length : Int) < m ∧
      now - oldest ≥ d ∧ l.request now key m d
        = some (true, { l with store := some (Function.update store key (some (rest ++ [now]))) })) ∨
    ∃ oldest rest, store key = some (oldest :: rest) ∧ ¬ ((oldest :: rest).length : Int) < m ∧
      ¬ now - oldest ≥ d ∧ l.request now key m d = some (false, l) := by
  cases hqueue : store key with
  | none =>
    by_cases hm : m < 0
    · exact .inl (by simp [request, hstore, hqueue, if_pos hm])
    · exact .inr (.inl ⟨rfl, request_first _ _ hstore hqueue (Int.not_lt.mp hm)⟩)
  | some queue =>
    by_cases hroom : (queue.length : Int) < m
    · exact .inr (.inr (.inl ⟨queue, rfl, hroom, request_room _ _ hstore hqueue hroom⟩))
    · cases queue with
      | nil => exact .inl (by simp only [request, hstore, hqueue, if_neg hroom])
      | cons oldest rest =>
        by_cases hage : now - oldest ≥ d
        · exact .inr (.inr (.inr (.inl ⟨oldest, rest, rfl, hroom, hage,
            by simp only [request, hstore, hqueue, if_neg hroom, if_pos hage]⟩)))
        · exact .inr (.inr (.inr (.inr ⟨oldest, rest, rfl, hroom, hage,
            by simp only [request, hstore, hqueue, if_neg hroom, if_neg hage]⟩)))

/-- An answer to another key changes nothing for this one. -/
theorem RateLimited.cons_other (h : RateLimited key m d history) (hne : a.key ≠ key) :
    RateLimited key m d (a :: history) where
  bounded := by
    rw [acceptedTimes_cons, if_neg fun h => hne h.1]
    exact h.bounded
  justified := ⟨fun hkey => absurd hkey hne, h.justified⟩

/-- A request of the key is accepted while fewer than `m` are recent. -/
theorem RateLimited.cons_accepted (h : RateLimited key m d history)
    (hpast : ∀ t ∈ acceptedTimes key history, t ≤ now)
    (hrecent : recent now d (acceptedTimes key history) < m) :
    RateLimited key m d (⟨key, now, true⟩ :: history) where
  bounded := by
    rw [acceptedTimes_cons, if_pos ⟨rfl, rfl⟩]
    exact h.bounded.cons hpast hrecent
  justified := ⟨nofun, h.justified⟩

/-- A request of the key is rejected while `m` are recent. -/
theorem RateLimited.cons_rejected (h : RateLimited key m d history)
    (hrecent : m ≤ recent now d (acceptedTimes key history)) :
    RateLimited key m d (⟨key, now, false⟩ :: history) where
  bounded := by
    rw [acceptedTimes_cons, if_neg fun h => by cases h.2]
    exact h.bounded
  justified := ⟨fun _ _ => hrecent, h.justified⟩

/-- A request of another key leaves the queue of this one alone. -/
theorem InMemoryRateLimiter.request_other {l' : InMemoryRateLimiter} {allowed : Bool}
    (hstore : l.store = some store) (hne : key' ≠ key)
    (h : l.request now key' m' d' = some (allowed, l')) :
    l'.expirationDuration = l.expirationDuration ∧
      ∃ store', l'.store = some store' ∧ store' key = store key := by
  have hupdate (queue : List Int) : Function.update store key' (some queue) key = store key :=
    Function.update_of_ne (Ne.symm hne) _ _
  rcases request_cases hstore now key' m' d' with heq | ⟨-, heq⟩ | ⟨queue, -, -, heq⟩ |
    ⟨oldest, rest, -, -, -, heq⟩ | ⟨oldest, rest, -, -, -, heq⟩ <;> rw [heq] at h
  · cases h
  · cases h
    exact ⟨rfl, _, rfl, hupdate _⟩
  · cases h
    exact ⟨rfl, _, rfl, hupdate _⟩
  · cases h
    exact ⟨rfl, _, rfl, hupdate _⟩
  · cases h
    exact ⟨rfl, store, hstore, rfl⟩

/-- An accepted request of the key, which leaves it with a queue. -/
theorem KeyInv.accept (h : KeyInv key m d expiration w) {queue : List Int}
    (hrecent : recent (unixSeconds w.clock) d (acceptedTimes key w.history) < m)
    (hqueue : QueueHolds m d (unixSeconds w.clock)
      (unixSeconds w.clock :: acceptedTimes key w.history) (some queue)) :
    KeyInv key m d expiration
      { w with
        limiter := { w.limiter with store := some (Function.update store key (some queue)) }
        history := ⟨key, unixSeconds w.clock, true⟩ :: w.history } := by
  have htimes : acceptedTimes key (⟨key, unixSeconds w.clock, true⟩ :: w.history)
      = unixSeconds w.clock :: acceptedTimes key w.history :=
    acceptedTimes_cons.trans (if_pos ⟨rfl, rfl⟩)
  refine ⟨?_, ?_, h.expiration_eq, h.cleaner, ⟨_, rfl, ?_⟩, h.limited.cons_accepted h.past hrecent⟩
  · rw [htimes]
    exact pairwise_cons.mpr ⟨h.past, h.sorted⟩
  · rw [htimes]
    exact forall_mem_cons.mpr ⟨Int.le_refl _, h.past⟩
  · rw [htimes, Function.update_self]
    exact hqueue

/-- **Step lemma**: with an expiration that is long enough, every event keeps the key limited. -/
theorem KeyInv.step (h : KeyInv key m d expiration w) (hm : 1 ≤ m)
    (hexpiration : expiration ≤ 0 ∨ d ≤ expiration / nanosPerSecond + 1) {e : LimiterEvent}
    (he : e.Uses key m d) : KeyInv key m d expiration (w.step e) := by
  obtain ⟨store, hstore, hqueue⟩ := h.queue
  cases e with
  | wait nanos =>
    have hle : unixSeconds w.clock ≤ unixSeconds (w.clock + nanos) := unixSeconds_mono (by omega)
    exact ⟨h.sorted, fun t ht => Int.le_trans (h.past t ht) hle, h.expiration_eq, h.cleaner,
      ⟨store, hstore, hqueue.mono hle⟩, h.limited⟩
  | init expirationDuration =>
    have hsame : w.step (.init expirationDuration) = w := by
      simp [LimiterWorld.step, InMemoryRateLimiter.init, hstore]
    rw [hsame]
    exact h
  | clear =>
    simp only [LimiterWorld.step]
    split
    · exact h
    · next wake hwake =>
      split
      · refine ⟨h.sorted, h.past, h.expiration_eq, fun _ => h.cleaner (by simp [hwake]),
          ⟨_, by rw [clearExpiredItems, hstore]; rfl, ?_⟩, h.limited⟩
        have hpositive : 0 < expiration := h.cleaner (by simp [hwake])
        have hseconds : d ≤ w.limiter.expirationSeconds + 1 := by
          rw [expirationSeconds, h.expiration_eq]
          omega
        exact hqueue.clear h.sorted hseconds
      · exact h
  | request key' maxRequestNum duration =>
    by_cases hkey : key' = key
    · subst hkey
      obtain ⟨rfl, rfl⟩ := he rfl
      simp only [LimiterWorld.step]
      rcases request_cases hstore (unixSeconds w.clock) key' maxRequestNum duration with
        heq | ⟨hnone, heq⟩ | ⟨queue, hsome, hroom, heq⟩ | ⟨oldest, rest, hsome, hfull, hage, heq⟩ |
        ⟨oldest, rest, hsome, hfull, hage, heq⟩ <;> rw [heq]
      · exact h
      · rw [hnone] at hqueue
        refine h.accept ?_ (hqueue.first hm)
        rw [hqueue.recent_none]
        omega
      · rw [hsome] at hqueue
        exact h.accept (hqueue.recent_room h.past hroom) (hqueue.push h.past hroom)
      · rw [hsome] at hqueue
        exact h.accept (hqueue.recent_full h.sorted hage) (hqueue.shift hfull)
      · rw [hsome] at hqueue
        have htimes : acceptedTimes key' (⟨key', unixSeconds w.clock, false⟩ :: w.history)
            = acceptedTimes key' w.history := acceptedTimes_cons.trans (if_neg fun h => by cases h.2)
        refine ⟨?_, ?_, h.expiration_eq, h.cleaner, ⟨store, hstore, ?_⟩,
          h.limited.cons_rejected (hqueue.le_recent h.sorted h.past hfull hage)⟩
        · rw [htimes]
          exact h.sorted
        · rw [htimes]
          exact h.past
        · rw [htimes, hsome]
          exact hqueue
    · simp only [LimiterWorld.step]
      cases hrequest : w.limiter.request (unixSeconds w.clock) key' maxRequestNum duration with
      | none => exact h
      | some r =>
        obtain ⟨hexp, store', hstore', hsame⟩ := request_other hstore hkey hrequest
        have htimes : acceptedTimes key (⟨key', unixSeconds w.clock, r.1⟩ :: w.history)
            = acceptedTimes key w.history := acceptedTimes_cons.trans (if_neg fun h => hkey h.1)
        refine ⟨?_, ?_, hexp.trans h.expiration_eq, h.cleaner, ⟨store', hstore', ?_⟩,
          h.limited.cons_other hkey⟩
        · rw [htimes]
          exact h.sorted
        · rw [htimes]
          exact h.past
        · rw [htimes, hsame]
          exact hqueue

end Step

/-! ## Runs -/

section Run

variable {key : String} {m d expiration : Int}

theorem KeyInv.start (hm : 1 ≤ m) (clock : Int) :
    KeyInv key m d expiration (.start clock expiration) where
  sorted := List.Pairwise.nil
  past := nofun
  expiration_eq := rfl
  cleaner h := by
    by_contra hle
    exact h (if_neg hle)
  queue := ⟨_, rfl, nofun⟩
  limited := ⟨windowBounded_nil (by omega), trivial⟩

/-- **Run lemma**: with an expiration that is long enough, every run keeps the key limited. -/
theorem run_limited (hm : 1 ≤ m) (hexpiration : expiration ≤ 0 ∨ d ≤ expiration / nanosPerSecond + 1)
    (clock : Int) {steps : List LimiterEvent} (hsteps : ∀ e ∈ steps, e.Uses key m d) :
    RateLimited key m d (run LimiterWorld.step (.start clock expiration) steps).history := by
  have hrun : KeyInv key m d expiration (run LimiterWorld.step (.start clock expiration) steps) := by
    refine run_keeps_mem (I := KeyInv key m d expiration) (fun w e hw he => ?_) (KeyInv.start hm clock) hsteps
    exact hw.step hm hexpiration he
  exact hrun.limited

/-- The limiter after `n` requests of a key in the second `0`. -/
theorem run_replicate (key : String) (d : Int) (hexpiration : 0 < expiration) {n : Nat} (hn : n ≤ m) :
    ∃ store, run LimiterWorld.step (.start 0 expiration) (List.replicate n (.request key m d))
      = { clock := 0
          limiter := ⟨some store, expiration⟩
          sleepUntil := some expiration
          history := List.replicate n ⟨key, 0, true⟩ } ∧
      store key = if n = 0 then none else some (List.replicate n 0) := by
  induction n with
  | zero =>
    refine ⟨fun _ => none, ?_, rfl⟩
    simp [LimiterWorld.start, LimiterWorld.step, InMemoryRateLimiter.init, hexpiration]
  | succ n ih =>
    obtain ⟨store, hrun, hqueue⟩ := ih (by omega)
    have hnow : unixSeconds 0 = 0 := rfl
    refine ⟨Function.update store key (some (List.replicate (n + 1) 0)), ?_, by simp⟩
    rw [replicate_succ', run_append, hrun, run_cons]
    by_cases hzero : n = 0
    · subst hzero
      have hrequest := request_first (l := ⟨some store, expiration⟩) 0 d rfl
        (hqueue.trans (if_pos rfl)) (show 0 ≤ m by omega)
      simp only [LimiterWorld.step, hnow, hrequest]
      rfl
    · rw [if_neg hzero] at hqueue
      have hroom : ((List.replicate n (0 : Int)).length : Int) < m := by
        rw [length_replicate]
        omega
      have hrequest := request_room (l := ⟨some store, expiration⟩) 0 d rfl
        hqueue hroom
      simp only [LimiterWorld.step, hnow, hrequest, ← replicate_succ']
      rfl

/-- **The defect**: with an expiration that is too short, the cleaner forgets `m` requests of the last `d`
seconds, and one more is accepted. -/
theorem exists_run_not_limited (key : String) (hm : 1 ≤ m) (hexpiration : 0 < expiration)
    (hshort : expiration / nanosPerSecond + 1 < d) :
    ∃ steps : List LimiterEvent, (∀ e ∈ steps, e.Uses key m d) ∧
      ¬ RateLimited key m d (run LimiterWorld.step (.start 0 expiration) steps).history := by
  obtain ⟨n, rfl⟩ := Int.eq_ofNat_of_zero_le (show 0 ≤ m by omega)
  -- a pause of a second more than the expiration
  have hseconds : 0 ≤ expiration / nanosPerSecond := Int.ediv_nonneg (Int.le_of_lt hexpiration) (by decide)
  have hnanos : nanosPerSecond = 1000000000 := rfl
  obtain ⟨pause, hpause⟩ := Int.eq_ofNat_of_zero_le
    (show 0 ≤ (expiration / nanosPerSecond + 1) * nanosPerSecond by rw [hnanos] at hseconds ⊢; omega)
  have hwake : expiration ≤ 0 + (pause : Int) := by
    rw [hnanos] at hpause
    omega
  have hnow : unixSeconds (0 + pause) = expiration / nanosPerSecond + 1 := by
    rw [unixSeconds, Int.zero_add, ← hpause, Int.mul_ediv_cancel _ (by decide)]
  obtain ⟨store, hrun, hqueue⟩ := run_replicate key d hexpiration (Int.le_refl (n : Int))
  refine ⟨List.replicate n (.request key n d) ++ [.wait pause, .clear, .request key n d], fun e he => ?_, ?_⟩
  · rcases mem_append.mp he with he | he
    · rw [eq_of_mem_replicate he]
      exact fun _ => ⟨rfl, rfl⟩
    · simp only [mem_cons, not_mem_nil, or_false] at he
      rcases he with rfl | rfl | rfl
      · trivial
      · trivial
      · exact fun _ => ⟨rfl, rfl⟩
  · -- all requests are forgotten, so the last one is accepted
    have hcleared : (store key).filter (fun queue => !expired
        (expiration / nanosPerSecond) (expiration / nanosPerSecond + 1) queue) = none := by
      have hn : n ≠ 0 := by omega
      rw [hqueue, if_neg hn, filter_some, expired, List.getLast?_replicate, if_neg hn]
      simpa using Int.lt_succ _
    have hrequest := request_first
      (l := clearExpiredItems ⟨some store, expiration⟩ (expiration / nanosPerSecond + 1))
      (expiration / nanosPerSecond + 1) d rfl hcleared (Int.natCast_nonneg n)
    have hhistory : (run LimiterWorld.step (.start 0 expiration)
        (List.replicate n (.request key n d) ++ [.wait pause, .clear, .request key n d])).history
        = ⟨key, expiration / nanosPerSecond + 1, true⟩ :: List.replicate n ⟨key, 0, true⟩ := by
      rw [run_append, hrun]
      simp only [run_cons, run_nil, LimiterWorld.step, hwake, if_true, hnow, hrequest]
    rw [hhistory]
    have htimes : acceptedTimes key
        (⟨key, expiration / nanosPerSecond + 1, true⟩ :: List.replicate n ⟨key, 0, true⟩)
        = (expiration / nanosPerSecond + 1) :: List.replicate n 0 := by
      simp [acceptedTimes]
    refine fun hlimited => not_windowBounded (w := 0) (fun t ht => ?_) ?_ (htimes ▸ hlimited.bounded)
    · rcases mem_cons.mp ht with rfl | ht
      · omega
      · rw [eq_of_mem_replicate ht]
        omega
    · rw [length_cons, length_replicate]
      omega

end Run

/-- **A limit holds in every run exactly when the expiration covers it.** For a key whose requests have one
limit and one duration, whatever the other callers do and whenever the cleaner makes its passes: every
window of the duration has at most the limit of accepted requests, and a request is rejected only for as
many accepted ones before it, precisely when the first `Init` started no cleaner, or one with an expiration
that is at most a second shorter than the duration. -/
theorem rateLimited_iff (key : String) (m d expiration : Int) (hm : 1 ≤ m) :
    (∀ clock steps, (∀ e ∈ steps, LimiterEvent.Uses key m d e) →
      RateLimited key m d (run LimiterWorld.step (.start clock expiration) steps).history) ↔
    expiration ≤ 0 ∨ d ≤ expiration / nanosPerSecond + 1 := by
  constructor
  · intro hlimited
    by_contra hneg
    obtain ⟨steps, hsteps, hnot⟩ := exists_run_not_limited key hm
      (show 0 < expiration by omega) (show expiration / nanosPerSecond + 1 < d by omega)
    exact hnot (hlimited 0 steps hsteps)
  · exact fun hexpiration clock steps => run_limited hm hexpiration clock

/-- As many requests of a critical route as it accepts in `20` minutes, a pass of the cleaner a minute
later, and one request more. -/
def criticalSteps : List LimiterEvent :=
  (List.replicate 20 (allowRateLimitRequest "rateLimit:CT:ip" 20 1200)).flatten ++
    [.wait 61000000000, .clear] ++ allowRateLimitRequest "rateLimit:CT:ip" 20 1200

theorem criticalSteps_uses : ∀ e ∈ criticalSteps, e.Uses "fallback:rateLimit:CT:ip" 20 1200 := by
  decide

/-- The critical routes are limited when they are the first to use the limiter. -/
theorem rateLimited_iff_critical :
    RateLimited "fallback:rateLimit:CT:ip" 20 1200
      (run LimiterWorld.step (.start 0 rateLimitKeyExpirationDuration) criticalSteps).history :=
  (rateLimited_iff _ 20 1200 rateLimitKeyExpirationDuration (by decide)).mpr (.inr (by decide)) 0 criticalSteps
    criticalSteps_uses

/-- When a model request with a window of one minute was the first, `21` are accepted in `20` minutes. -/
theorem critical_not_limited :
    (∀ e ∈ criticalSteps, e.Uses "fallback:rateLimit:CT:ip" 20 1200) ∧
    inWindow 0 1200 (acceptedTimes "fallback:rateLimit:CT:ip"
      (run LimiterWorld.step (.start 0 (memoryRateLimitExpiration 1)) criticalSteps).history) = 21 :=
  ⟨criticalSteps_uses, by decide +kernel⟩

end Prox
