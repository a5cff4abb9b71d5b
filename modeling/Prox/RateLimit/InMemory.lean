import Mathlib.Logic.Function.Basic
import Prox.Lib.Run
import Prox.Lib.Time
import Prox.Lib.Window

/-! # The in-memory rate limiter

The embedding of `InMemoryRateLimiter` of `common/rate-limit.go`: for each key a queue of the times of its
last accepted requests, and a cleaner that wakes up from time to time and deletes the keys whose last
request is old. All callers share one limiter, and the first to call `Init` decides on the expiration. Every
operation holds the limiter's lock, so a run is a list of operations with the time that passes between. -/

namespace Prox

/-- `InMemoryRateLimiter`; without a store nobody has called `Init`. -/
structure InMemoryRateLimiter where
  store : Option (String → Option (List Int)) := none
  /-- In nanoseconds. -/
  expirationDuration : Int := 0

namespace InMemoryRateLimiter

/-- `Init`, of which only the first call counts. -/
def init (l : InMemoryRateLimiter) (expirationDuration : Int) : InMemoryRateLimiter :=
  match l.store with
  | none => ⟨some fun _ => none, expirationDuration⟩
  | some _ => l

/-- `int64(l.expirationDuration.Seconds())`. -/
def expirationSeconds (l : InMemoryRateLimiter) : Int := l.expirationDuration / nanosPerSecond

/-- A queue that a pass of the cleaner deletes. -/
def expired (expirationSeconds now : Int) (queue : List Int) : Bool :=
  match queue.getLast? with
  | none => true
  | some last => now - last > expirationSeconds

/-- A pass of `clearExpiredItems`. -/
def clearExpiredItems (l : InMemoryRateLimiter) (now : Int) : InMemoryRateLimiter :=
  { l with
    store := l.store.map fun store key => (store key).filter fun queue => !expired l.expirationSeconds now queue }

/-- `Request`: whether the request is accepted, and the limiter afterwards. A nil store, a negative capacity
of a new queue and a full queue without entries panic. -/
def request (l : InMemoryRateLimiter) (now : Int) (key : String) (maxRequestNum duration : Int) :
    Option (Bool × InMemoryRateLimiter) :=
  match l.store with
  | none => none
  | some store =>
    match store key with
    | none =>
      if maxRequestNum < 0 then none
      else some (true, { l with store := some (Function.update store key (some [now])) })
    | some queue =>
      if (queue.length : Int) < maxRequestNum then
        some (true, { l with store := some (Function.update store key (some (queue ++ [now]))) })
      else
        match queue with
        | [] => none
        | oldest :: rest =>
          if now - oldest ≥ duration then
            some (true, { l with store := some (Function.update store key (some (rest ++ [now]))) })
          else some (false, l)

end InMemoryRateLimiter

/-! ## Runs -/

/-- The answer to a request. -/
structure RateAnswer where
  key : String
  time : Int
  allowed : Bool

/-- The limiter, the clock in nanoseconds, the time at which the cleaner wakes up, if it was started, and
the answers so far, newest first. -/
structure LimiterWorld where
  clock : Int
  limiter : InMemoryRateLimiter
  sleepUntil : Option Int
  history : List RateAnswer

/-- An operation on the limiter, or time that passes. -/
inductive LimiterEvent where
  | wait (nanos : Nat)
  | init (expirationDuration : Int)
  /-- The cleaner makes a pass, if it is awake. -/
  | clear
  | request (key : String) (maxRequestNum duration : Int)

/-- The world after an event. -/
def LimiterWorld.step (w : LimiterWorld) : LimiterEvent → LimiterWorld
  | .wait nanos => { w with clock := w.clock + nanos }
  | .init expirationDuration =>
    match w.limiter.store with
    | none =>
      { w with
        limiter := w.limiter.init expirationDuration
        sleepUntil := if expirationDuration > 0 then some (w.clock + expirationDuration) else none }
    | some _ => { w with limiter := w.limiter.init expirationDuration }
  | .clear =>
    match w.sleepUntil with
    | none => w
    | some wake =>
      if wake ≤ w.clock then
        { w with
          limiter := w.limiter.clearExpiredItems (unixSeconds w.clock)
          sleepUntil := some (w.clock + w.limiter.expirationDuration) }
      else w
  | .request key maxRequestNum duration =>
    match w.limiter.request (unixSeconds w.clock) key maxRequestNum duration with
    | none => w
    | some (allowed, limiter) =>
      { w with limiter, history := ⟨key, unixSeconds w.clock, allowed⟩ :: w.history }

/-- A limiter whose first `Init` is with an expiration. -/
def LimiterWorld.start (clock expirationDuration : Int) : LimiterWorld :=
  LimiterWorld.step ⟨clock, {}, none, []⟩ (.init expirationDuration)

/-- The expiration of `allowRateLimitRequest`. -/
def rateLimitKeyExpirationDuration : Int := 20 * 60 * nanosPerSecond

/-- What `allowRateLimitRequest` does with the limiter when Redis does not answer. -/
def allowRateLimitRequest (key : String) (maxRequestNum duration : Int) : List LimiterEvent :=
  if maxRequestNum ≤ 0 then []
  else [.init rateLimitKeyExpirationDuration,
    .request ("fallback:" ++ key) maxRequestNum (if duration ≤ 0 then 1 else duration)]

/-- The times of the accepted requests of a key, newest first. -/
def acceptedTimes (key : String) (history : List RateAnswer) : List Int :=
  (history.filter fun a => a.key = key ∧ a.allowed).map RateAnswer.time

/-- A rejected request of the key finds `m` accepted ones in the `d` seconds before it. -/
def RateAnswer.Justified (key : String) (m d : Int) (past : List RateAnswer) (a : RateAnswer) : Prop :=
  a.key = key → a.allowed = false → m ≤ recent a.time d (acceptedTimes key past)

/-- A key is limited to `m` requests in `d` seconds: no window has more accepted ones, and what is rejected
is rejected for `m` accepted ones. -/
structure RateLimited (key : String) (m d : Int) (history : List RateAnswer) : Prop where
  bounded : WindowBounded m d (acceptedTimes key history)
  justified : Throughout (RateAnswer.Justified key m d) history

/-- Requests of the key have the limit and the duration. -/
def LimiterEvent.Uses (key : String) (m d : Int) : LimiterEvent → Prop
  | .request key' maxRequestNum duration => key' = key → maxRequestNum = m ∧ duration = d
  | _ => True

instance (key : String) (m d : Int) : ∀ e : LimiterEvent, Decidable (e.Uses key m d)
  | .request key' maxRequestNum duration =>
    inferInstanceAs (Decidable (key' = key → maxRequestNum = m ∧ duration = d))
  | .wait _ | .init _ | .clear => .isTrue trivial

/-- The expiration that the `Init` of `memoryRateLimitHandler` comes with. -/
def memoryRateLimitExpiration (modelRequestRateLimitDurationMinutes : Int) : Int :=
  modelRequestRateLimitDurationMinutes * 60 * nanosPerSecond

end Prox
