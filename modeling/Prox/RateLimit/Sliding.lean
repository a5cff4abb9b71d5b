import Mathlib.Data.List.DropRight
import Prox.RateLimit.Limited

/-! # The rate limit script

The embedding of `redisSlidingWindowRateLimitScript` of `middleware/rate-limit.go`, in whole seconds: a list
of the times of the accepted requests of a key, newest first, which Redis forgets when its time to live is
over. The script and the in-memory limiter that replaces it decide alike, since both count the accepted
requests of the last window. -/

namespace Prox

open List Option

/-- A list under a key of Redis, with the time up to which it lives. -/
structure RedisList where
  items : List Int := []
  expireAt : Int := 0
  deriving DecidableEq, Repr

namespace RedisList

/-- The items that are there: none once the time to live is over. -/
def live (l : RedisList) (now : Int) : List Int := if l.expireAt < now then [] else l.items

/-- `redisSlidingWindowRateLimitScript`: whether the request is accepted, and the list afterwards. -/
def redisSlidingWindow (maximum window now : Int) (l : RedisList) : Bool × RedisList :=
  let cutoff := now - window
  -- `RPOP` while the oldest time is not after the cutoff
  let items := (l.live now).rdropWhile (· ≤ cutoff)
  if items.length ≥ maximum then (false, ⟨items, now + max window 1⟩)
  else (true, ⟨now :: items, now + max window 1⟩)

/-- The answers to requests at the given times. -/
def answers (maximum window : Int) : List Int → RedisList → List Bool
  | [], _ => []
  | now :: times, l =>
    (l.redisSlidingWindow maximum window now).1 ::
      answers maximum window times (l.redisSlidingWindow maximum window now).2

/-- Of the accepted times a list may lack what is a whole window ago, and it lives until this is true of
all that it has. -/
def Holds (d now : Int) (times : List Int) (l : RedisList) : Prop :=
  ∃ old, times = l.items ++ old ∧ (∀ t ∈ old, t + d ≤ now) ∧ ∀ t ∈ l.items, t + d ≤ l.expireAt

end RedisList

/-- The answers to requests of a key at the given times; none if one of them panics. -/
def InMemoryRateLimiter.answers (key : String) (maxRequestNum duration : Int) :
    List Int → InMemoryRateLimiter → Option (List Bool)
  | [], _ => some []
  | now :: times, l => do
    let (allowed, l) ← l.request now key maxRequestNum duration
    return allowed :: (← answers key maxRequestNum duration times l)

variable {m d now now' : Int} {times accepted : List Int} {log : RedisList}

/-- The accepted times after an answer at `now`. -/
def afterAnswer (m d now : Int) (accepted : List Int) : List Int :=
  if recent now d accepted < m then now :: accepted else accepted

theorem RedisList.Holds.mono (h : log.Holds d now accepted) (hle : now ≤ now') :
    log.Holds d now' accepted := by
  obtain ⟨old, htimes, hold, hlive⟩ := h
  exact ⟨old, htimes, fun t ht => Int.le_trans (hold t ht) hle, hlive⟩

/-- What the script leaves of a list are the accepted times of the last window. -/
theorem RedisList.Holds.pop (h : log.Holds d now accepted) (hpast : ∀ t ∈ accepted, t ≤ now)
    (hsorted : accepted.Pairwise (· ≥ ·)) :
    ∃ old, accepted = (log.live now).rdropWhile (· ≤ now - d) ++ old ∧ (∀ t ∈ old, t + d ≤ now) ∧
      (((log.live now).rdropWhile (· ≤ now - d)).length : Int) = recent now d accepted := by
  obtain ⟨old, rfl, hold, hlive⟩ := h
  -- what ran out of time to live was old as well
  obtain ⟨gone, hitems, hgone⟩ : ∃ gone, log.items = log.live now ++ gone ∧ ∀ t ∈ gone, t + d ≤ now := by
    unfold RedisList.live
    split
    · exact ⟨log.items, rfl, fun t ht => by have := hlive t ht; omega⟩
    · exact ⟨[], (append_nil _).symm, nofun⟩
  have hparts : (log.live now).rdropWhile (fun t => decide (t ≤ now - d)) ++
      (log.live now).rtakeWhile (fun t => decide (t ≤ now - d)) = log.live now :=
    rdropWhile_append_rtakeWhile
  generalize hkept : (log.live now).rdropWhile (fun t => decide (t ≤ now - d)) = kept at hparts ⊢
  have hpopped : ∀ t ∈ (log.live now).rtakeWhile (fun t : Int => decide (t ≤ now - d)), t + d ≤ now := by
    intro t ht
    have := of_decide_eq_true (mem_rtakeWhile_imp (p := fun t : Int => decide (t ≤ now - d)) ht)
    omega
  rw [hitems, ← hparts, append_assoc, append_assoc] at hsorted hpast ⊢
  have hrest : ∀ t ∈ (log.live now).rtakeWhile (fun t : Int => decide (t ≤ now - d)) ++ (gone ++ old),
      t + d ≤ now := by
    simp only [mem_append]
    rintro t (ht | ht | ht)
    · exact hpopped t ht
    · exact hgone t ht
    · exact hold t ht
  refine ⟨_, rfl, hrest, ?_⟩
  -- the oldest time that is left is in the window, so all that are left are
  have hrecent : ∀ t ∈ kept, now - d < t ∧ t ≤ now := by
    intro t ht
    refine ⟨?_, hpast t (mem_append_left _ ht)⟩
    have hne : kept ≠ [] := ne_nil_of_mem ht
    have hlast : ¬ kept.getLast hne ≤ now - d := by
      subst hkept
      simpa using rdropWhile_last_not (fun t : Int => decide (t ≤ now - d)) (log.live now) hne
    have hdesc := (pairwise_append.mp hsorted).1
    rw [← dropLast_append_getLast hne] at hdesc ht
    rcases mem_append.mp ht with ht | ht
    · have := (pairwise_append.mp hdesc).2.2 t ht _ (mem_singleton_self _)
      omega
    · rw [mem_singleton.mp ht]
      omega
  rw [recent_append, recent_eq_length hrecent, recent_eq_zero hrest, Int.add_zero]

/-- The script accepts a request while fewer than `m` accepted ones are in the window. -/
theorem RedisList.Holds.request (h : log.Holds d now accepted) (hpast : ∀ t ∈ accepted, t ≤ now)
    (hsorted : accepted.Pairwise (· ≥ ·)) :
    (log.redisSlidingWindow m d now).1 = decide (recent now d accepted < m) ∧
      (log.redisSlidingWindow m d now).2.Holds d now (afterAnswer m d now accepted) := by
  obtain ⟨old, htimes, hold, hlength⟩ := h.pop hpast hsorted
  unfold redisSlidingWindow afterAnswer
  dsimp only
  generalize (log.live now).rdropWhile (fun t => decide (t ≤ now - d)) = items at htimes hlength ⊢
  have hitems : ∀ t ∈ items, t + d ≤ now + max d 1 := by
    intro t ht
    have := hpast t (htimes ▸ mem_append_left _ ht)
    omega
  by_cases hfull : recent now d accepted < m
  · rw [if_neg (by omega), if_pos hfull, decide_eq_true hfull]
    refine ⟨rfl, old, by rw [htimes]; rfl, hold, fun t ht => ?_⟩
    rcases mem_cons.mp ht with rfl | ht
    · show t + d ≤ t + max d 1
      omega
    · exact hitems t ht
  · rw [if_pos (by omega), if_neg hfull, decide_eq_false hfull]
    exact ⟨rfl, old, htimes, hold, hitems⟩

/-- So does the in-memory limiter. -/
theorem InMemoryRateLimiter.request_recent {l : InMemoryRateLimiter} {store : String → Option (List Int)}
    {key : String} (hm : 1 ≤ m) (hstore : l.store = some store)
    (h : QueueHolds m d now accepted (store key)) (hpast : ∀ t ∈ accepted, t ≤ now)
    (hsorted : accepted.Pairwise (· ≥ ·)) :
    ∃ l' store', l.request now key m d = some (decide (recent now d accepted < m), l') ∧
      l'.store = some store' ∧ QueueHolds m d now (afterAnswer m d now accepted) (store' key) := by
  unfold afterAnswer
  cases hqueue : store key with
  | none =>
    rw [hqueue] at h
    have hroom : recent now d accepted < m := by rw [h.recent_none]; omega
    rw [request_first now d hstore hqueue (by omega), if_pos hroom, decide_eq_true hroom]
    exact ⟨_, _, rfl, rfl, by rw [Function.update_self]; exact h.first hm⟩
  | some queue =>
    rw [hqueue] at h
    by_cases hlength : (queue.length : Int) < m
    · have hroom := h.recent_room hpast hlength
      rw [request_room now d hstore hqueue hlength, if_pos hroom, decide_eq_true hroom]
      exact ⟨_, _, rfl, rfl, by rw [Function.update_self]; exact h.push hpast hlength⟩
    · cases queue with
      | nil => exact absurd rfl h.1
      | cons oldest rest =>
        by_cases hage : now - oldest ≥ d
        · have hroom := h.recent_full hsorted hage
          rw [if_pos hroom, decide_eq_true hroom]
          refine ⟨{ l with store := some (Function.update store key (some (rest ++ [now]))) }, _,
            by simp only [request, hstore, hqueue, if_neg hlength, if_pos hage], rfl, ?_⟩
          rw [Function.update_self]
          exact h.shift hlength
        · have hfull := Int.not_lt.mpr (h.le_recent hsorted hpast hlength hage)
          rw [if_neg hfull, decide_eq_false hfull]
          refine ⟨l, store, by simp only [request, hstore, hqueue, if_neg hlength, if_neg hage], hstore, ?_⟩
          rw [hqueue]
          exact h

/-- From what holds the same accepted times, script and limiter give the same answers. -/
theorem answers_of_holds {l : InMemoryRateLimiter} {store : String → Option (List Int)} {key : String}
    (hm : 1 ≤ m) (hstore : l.store = some store)
    (hqueue : QueueHolds m d now accepted (store key)) (hlog : log.Holds d now accepted)
    (hpast : ∀ t ∈ accepted, t ≤ now) (hsorted : accepted.Pairwise (· ≥ ·))
    (hnow : ∀ t ∈ times, now ≤ t) (htimes : times.Pairwise (· ≤ ·)) :
    l.answers key m d times = some (log.answers m d times) := by
  induction times generalizing now accepted log l store with
  | nil => rfl
  | cons t times ih =>
    have hle := hnow t (mem_cons_self ..)
    have hpast' : ∀ x ∈ accepted, x ≤ t := fun x hx => Int.le_trans (hpast x hx) hle
    obtain ⟨hanswer, hlog'⟩ := (hlog.mono hle).request (m := m) hpast' hsorted
    obtain ⟨l', store', hrequest, hstore', hqueue'⟩ :=
      InMemoryRateLimiter.request_recent hm hstore (hqueue.mono hle) hpast' hsorted
    have hafter : (∀ x ∈ afterAnswer m d t accepted, x ≤ t) ∧
        (afterAnswer m d t accepted).Pairwise (· ≥ ·) := by
      unfold afterAnswer
      split
      · exact ⟨forall_mem_cons.mpr ⟨Int.le_refl t, hpast'⟩, pairwise_cons.mpr ⟨hpast', hsorted⟩⟩
      · exact ⟨hpast', hsorted⟩
    have hrest := ih hstore' hqueue' hlog' hafter.1 hafter.2 (pairwise_cons.mp htimes).1
      (pairwise_cons.mp htimes).2
    simp only [InMemoryRateLimiter.answers, RedisList.answers, hrequest, hanswer, hrest, bind_eq_bind,
      bind_some, Option.pure_def]

/-- **Script and in-memory limiter decide alike**: for a key with one limit and one duration, from an empty
list and from a limiter without a queue of the key, requests at the same times get the same answers. -/
theorem answers_eq_script (key : String) (hm : 1 ≤ m) (store : String → Option (List Int))
    (hkey : store key = none) (expirationDuration : Int) (htimes : times.Pairwise (· ≤ ·)) :
    InMemoryRateLimiter.answers key m d times ⟨some store, expirationDuration⟩ =
      some (RedisList.answers m d times {}) := by
  cases times with
  | nil => rfl
  | cons t rest =>
    refine answers_of_holds hm rfl ?_ ⟨[], rfl, nofun, nofun⟩ nofun .nil
      (forall_mem_cons.mpr ⟨Int.le_refl t, (pairwise_cons.mp htimes).1⟩) htimes
    rw [hkey]
    exact nofun

/-- Two requests in `10` seconds: ties, a request at the edge of the window, and an idle gap. -/
theorem answers_eq_script_ties :
    InMemoryRateLimiter.answers "GA1.2.3.4" 2 10 [5, 5, 5, 15, 15, 100] ⟨some fun _ => none, 0⟩ =
      some (RedisList.answers 2 10 [5, 5, 5, 15, 15, 100] {}) :=
  answers_eq_script "GA1.2.3.4" (by decide) (fun _ => none) rfl 0 (by decide)

end Prox
