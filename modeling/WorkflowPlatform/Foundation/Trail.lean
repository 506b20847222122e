import Mathlib.Data.List.Chain
import Mathlib.Data.List.Basic

/-! # Trails

A log of hops, each from one state to the next, replays to the state it ends in.
Whoever starts an empty log and appends only hops that leave the state reached so
far keeps a trail.
-/

universe u

/-- A log of allowed hops that leads from one state to another. -/
inductive Trail {State : Type u} (allowed : State → State → Prop) (start : State) :
    List (State × State) → State → Prop
  | nil : Trail allowed start [] start
  | hop {log : List (State × State)} {current next : State}
      (htrail : Trail allowed start log current)
      (hallowed : allowed current next) : Trail allowed start (log ++ [(current, next)]) next

namespace Trail

variable {State : Type u} {allowed : State → State → Prop} {start final : State}
  {log : List (State × State)}

/-- Replaying the hops leads to the last state. -/
theorem replay (htrail : Trail allowed start log final) :
    log.foldl (fun _ hop => hop.2) start = final := by
  cases htrail with
  | nil => rfl
  | hop => rw [List.foldl_append, List.foldl_cons, List.foldl_nil]

theorem eq_of_getLast? (htrail : Trail allowed start log final) {hop : State × State}
    (hlast : log.getLast? = some hop) : hop.2 = final := by
  cases htrail with
  | nil => cases hlast
  | hop =>
      rw [List.getLast?_concat] at hlast
      rw [← Option.some.inj hlast]

theorem eq_of_head? (htrail : Trail allowed start log final) {hop : State × State}
    (hhead : log.head? = some hop) : hop.1 = start := by
  induction htrail with
  | nil => cases hhead
  | @hop log current next htrail _ ih =>
      cases log with
      | nil =>
          -- the first hop leaves the state the empty log has reached
          rw [← Option.some.inj hhead]
          exact htrail.replay.symm
      | cons first rest => exact ih hhead

theorem allowed_of_mem (htrail : Trail allowed start log final) {hop : State × State}
    (hhop : hop ∈ log) : allowed hop.1 hop.2 := by
  induction htrail with
  | nil => cases hhop
  | hop _ hallowed ih =>
      rcases List.mem_append.mp hhop with hold | hnew
      · exact ih hold
      · rw [List.mem_singleton.mp hnew]
        exact hallowed

/-- Each hop leaves the state the one before it led to. -/
theorem isChain (htrail : Trail allowed start log final) :
    log.IsChain fun hop next => next.1 = hop.2 := by
  induction htrail with
  | nil => exact List.isChain_nil
  | hop htrail _ ih =>
      refine List.isChain_append.mpr ⟨ih, List.isChain_singleton _, ?_⟩
      intro last hlast first hfirst
      rw [← Option.some.inj hfirst]
      exact (htrail.eq_of_getLast? hlast).symm

end Trail
