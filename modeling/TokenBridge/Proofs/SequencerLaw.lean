import TokenBridge.Proofs.Sequencing
/-!
The relayer's sequencer over a whole history of calls.

A history is a list of calls, each a resume of a route at an index or a transfer observed, run in
order; a refused transfer leaves the sequencer as it was (`Sequencer.feed`). What a history set
on a route is read off its events alone: the index of its latest resume or accepted transfer, 0
if none (`lastSet`). The sequencer's last index is always that (`lastIndex_feed_empty`).

One call at a time (`call_observe`): a transfer is accepted exactly when its index is one more
than its route's last, counted with a stop at the largest `u64`; it then becomes that route's
last and no other route changes. A refused transfer is answered with the index expected, the
same stopped count, and changes nothing. Over a stretch of calls that does not resume a route,
the transfers accepted on it are therefore numbered last + 1, last + 2, … until the largest
`u64` (`accepted_count_up`), and no index is taken twice below it (`accepted_nodup`). The largest
`u64` itself is its own successor: once a route stands there, the same index is accepted again
and again (`max_index_accepted_twice`).
-/

namespace TokenBridge

namespace Sequencer

/-- The index expected after `n`, as a number: one more, stopped at the largest `u64`. -/
theorem toNat_successor (n : UInt64) :
    (successor n).toNat = min (n.toNat + 1) (UInt64.size - 1) := by
  unfold successor
  split
  · rename_i hmax
    subst hmax
    decide
  · rename_i hne
    have hsize : UInt64.size = 18446744073709551616 := rfl
    have hlt : n.toNat + 1 < UInt64.size := by
      have hle := n.toNat_lt
      have hne' : n.toNat ≠ UInt64.size - 1 := fun h => hne (UInt64.toNat_inj.1 (by rw [h]; rfl))
      omega
    rw [UInt64.toNat_add, UInt64.toNat_one, Nat.mod_eq_of_lt hlt]
    omega

/-- A call of the relayer on its sequencer. -/
inductive Call where
  /-- Sets a route's last index outright. -/
  | resume (k : RouteKey) (n : UInt64)
  /-- Offers a transfer. -/
  | observe (g : TransferLog)

/-- Whether a call resumes the route `k`. -/
def Call.resumes (k : RouteKey) : Call → Bool
  | .resume k' _ => k' == k
  | .observe _ => false

/-- What a call came to. -/
inductive Event where
  | resumed (k : RouteKey) (n : UInt64)
  | accepted (g : TransferLog)
  | refused (g : TransferLog) (e : StaleIndex)
  deriving DecidableEq

/-- One call; a refused transfer leaves the sequencer as it was. -/
def call (seq : Sequencer) : Call → Sequencer × Event
  | .resume k n => (seq.resume k n, .resumed k n)
  | .observe g =>
    match seq.observe g with
    | .ok seq' => (seq', .accepted g)
    | .error e => (seq, .refused g e)

@[simp] theorem call_resume (seq : Sequencer) (k : RouteKey) (n : UInt64) :
    seq.call (.resume k n) = (seq.resume k n, .resumed k n) := rfl

/-- The calls in order: the sequencer after them, and what each came to. -/
def feed (seq : Sequencer) : List Call → Sequencer × List Event
  | [] => (seq, [])
  | c :: cs => (((seq.call c).1.feed cs).1, (seq.call c).2 :: ((seq.call c).1.feed cs).2)

/-- The index an event sets on the route `k`: a resume of `k`, or a transfer accepted on `k`. -/
def Event.sets (k : RouteKey) : Event → Option UInt64
  | .resumed k' n => if k' = k then some n else none
  | .accepted g => if g.routeKey = k then some g.index else none
  | .refused .. => none

/-- What a history of events set last on the route `k`, 0 if nothing. -/
def lastSet (es : List Event) (k : RouteKey) : UInt64 :=
  ((es.filterMap (Event.sets k)).getLast?).getD 0

/-- The indexes of the transfers accepted on the route `k`, in order. -/
def acceptedOn (k : RouteKey) (es : List Event) : List UInt64 :=
  es.filterMap fun e => match e with
    | .accepted g => if g.routeKey = k then some g.index else none
    | _ => none

@[simp] theorem acceptedOn_nil (k : RouteKey) : acceptedOn k [] = [] := rfl

@[simp] theorem acceptedOn_resumed (k k' : RouteKey) (n : UInt64) (es : List Event) :
    acceptedOn k (.resumed k' n :: es) = acceptedOn k es := rfl

@[simp] theorem acceptedOn_refused (k : RouteKey) (g : TransferLog) (e : StaleIndex)
    (es : List Event) : acceptedOn k (.refused g e :: es) = acceptedOn k es := rfl

@[simp] theorem acceptedOn_accepted (k : RouteKey) (g : TransferLog) (es : List Event) :
    acceptedOn k (.accepted g :: es) =
      if g.routeKey = k then g.index :: acceptedOn k es else acceptedOn k es := by
  by_cases h : g.routeKey = k <;> simp [acceptedOn, h]

/-- The law of one observed transfer: accepted exactly when its index is one more than its route's
last, stopped at the largest `u64`, and then the route's last; refused otherwise, with the index
expected, and nothing changes. -/
theorem call_observe (seq : Sequencer) (g : TransferLog) :
    seq.call (.observe g) =
      if g.index.toNat = min ((seq.lastIndex g.routeKey).toNat + 1) (UInt64.size - 1) then
        (seq.resume g.routeKey g.index, .accepted g)
      else
        (seq, .refused g ⟨g.token, g.destination, successor (seq.lastIndex g.routeKey), g.index⟩) := by
  have hiff : g.index = successor (seq.lastIndex g.routeKey) ↔
      g.index.toNat = min ((seq.lastIndex g.routeKey).toNat + 1) (UInt64.size - 1) := by
    rw [← toNat_successor, UInt64.toNat_inj]
  by_cases h : g.index = successor (seq.lastIndex g.routeKey)
  · rw [if_pos (hiff.1 h), call, observe_of_next h]
  · rw [if_neg (mt hiff.2 h), call, observe_of_ne h]

/-- One call sets a route's last index to what its event sets there, if anything. -/
theorem lastIndex_call (seq : Sequencer) (c : Call) (k : RouteKey) :
    (seq.call c).1.lastIndex k = ((seq.call c).2.sets k).getD (seq.lastIndex k) := by
  cases c with
  | resume k' n =>
    by_cases hk : k' = k
    · subst hk
      simp [call, Event.sets]
    · simp [call, Event.sets, hk, lastIndex_resume_of_ne (Ne.symm hk)]
  | observe g =>
    rw [call_observe]
    split
    · by_cases hk : g.routeKey = k
      · subst hk
        simp [Event.sets]
      · simp [Event.sets, hk, lastIndex_resume_of_ne (Ne.symm hk)]
    · rfl

/-- Reading the last of the values set, the events before it give the default. -/
theorem getLast?_getD_toList_append {α : Type} (o : Option α) (l : List α) (d : α) :
    ((o.toList ++ l).getLast?).getD d = (l.getLast?).getD (o.getD d) := by
  cases o with
  | none => rfl
  | some a => simp [List.getLast?_cons]

/-- After a history, a route's last index is what the history set last on it, or what it was. -/
theorem lastIndex_feed (seq : Sequencer) (cs : List Call) (k : RouteKey) :
    (seq.feed cs).1.lastIndex k =
      (((seq.feed cs).2.filterMap (Event.sets k)).getLast?).getD (seq.lastIndex k) := by
  induction cs generalizing seq with
  | nil => rfl
  | cons c cs ih =>
    have hsplit : ((seq.call c).2 :: ((seq.call c).1.feed cs).2).filterMap (Event.sets k) =
        ((seq.call c).2.sets k).toList ++ ((seq.call c).1.feed cs).2.filterMap (Event.sets k) := by
      rw [List.filterMap_cons]
      cases (seq.call c).2.sets k <;> rfl
    simp only [feed]
    rw [ih, hsplit, getLast?_getD_toList_append, lastIndex_call]

/-- From a fresh sequencer, a route's last index is what the history set last on it. -/
theorem lastIndex_feed_empty (cs : List Call) (k : RouteKey) :
    (({} : Sequencer).feed cs).1.lastIndex k = lastSet (({} : Sequencer).feed cs).2 k :=
  lastIndex_feed {} cs k

/-- Over calls that do not resume the route `k`, the transfers accepted on it are numbered one
after its last index, each one more than the one before, with a stop at the largest `u64`. -/
theorem accepted_count_up (seq : Sequencer) (cs : List Call) (k : RouteKey)
    (hk : ∀ c ∈ cs, c.resumes k = false) :
    (acceptedOn k (seq.feed cs).2).map UInt64.toNat =
      (List.range (acceptedOn k (seq.feed cs).2).length).map
        fun i => min ((seq.lastIndex k).toNat + i + 1) (UInt64.size - 1) := by
  induction cs generalizing seq with
  | nil => rfl
  | cons c cs ih =>
    have hrest := ih (seq.call c).1 fun c' hc' => hk c' (List.mem_cons_of_mem c hc')
    simp only [feed]
    cases c with
    | resume k' n =>
      -- another route is resumed: nothing is accepted and the last index on `k` stays
      have hne : k' ≠ k := by simpa [Call.resumes] using hk _ List.mem_cons_self
      have hlast : (seq.resume k' n).lastIndex k = seq.lastIndex k :=
        lastIndex_resume_of_ne (Ne.symm hne)
      simpa [call, hlast] using hrest
    | observe g =>
      by_cases hk' : g.routeKey = k
      · subst hk'
        by_cases hnext :
            g.index.toNat = min ((seq.lastIndex g.routeKey).toNat + 1) (UInt64.size - 1)
        · -- accepted: the route's last becomes this index, one more than before
          rw [call_observe, if_pos hnext] at hrest ⊢
          simp only [lastIndex_resume_self] at hrest
          simp only [acceptedOn_accepted, if_true, List.map_cons, List.length_cons,
            List.range_succ_eq_map, List.map_map, hrest]
          have hsize : UInt64.size = 18446744073709551616 := rfl
          refine List.cons_eq_cons.mpr ⟨by omega, List.map_congr_left fun i _ => ?_⟩
          simp only [Function.comp_apply]
          omega
        · rw [call_observe, if_neg hnext] at hrest ⊢
          simpa using hrest
      · -- a transfer on another route: not counted here, and the last index on `k` stays
        have hlast : (seq.call (.observe g)).1.lastIndex k = seq.lastIndex k := by
          rw [call_observe]
          split
          · exact lastIndex_resume_of_ne (Ne.symm hk')
          · rfl
        have hskip : acceptedOn k ((seq.call (.observe g)).2 :: ((seq.call (.observe g)).1.feed cs).2) =
            acceptedOn k ((seq.call (.observe g)).1.feed cs).2 := by
          rw [call_observe]
          split <;> simp [hk']
        rw [hskip, ← hlast]
        exact hrest

/-- Below the largest `u64`, no index is accepted twice on a route over calls that do not resume
it. -/
theorem accepted_nodup (seq : Sequencer) (cs : List Call) (k : RouteKey)
    (hk : ∀ c ∈ cs, c.resumes k = false)
    (hbelow : (seq.lastIndex k).toNat + (acceptedOn k (seq.feed cs).2).length < UInt64.size) :
    (acceptedOn k (seq.feed cs).2).Nodup := by
  have hcount := accepted_count_up seq cs k hk
  -- below the stop every index is the last one plus its position, so they differ
  have hnat : ((acceptedOn k (seq.feed cs).2).map UInt64.toNat).Nodup := by
    rw [hcount]
    refine List.Nodup.map_on (fun i hi j hj hij => ?_) List.nodup_range
    rw [List.mem_range] at hi hj
    omega
  exact List.Nodup.of_map UInt64.toNat hnat

/-- The law of the sequencer over any history: the next transfer is judged against the last
index the history set on its route, counted with a stop at the largest `u64`; and over any later
stretch that does not resume a route, the transfers accepted on it count up by one from that
last index, stopping at the largest `u64`, and repeat no index below it. -/
theorem sequencer_law (past : List Call) :
    (∀ g : TransferLog,
      let h := ({} : Sequencer).feed past
      h.1.call (.observe g) =
        if g.index.toNat = min ((lastSet h.2 g.routeKey).toNat + 1) (UInt64.size - 1) then
          (h.1.resume g.routeKey g.index, .accepted g)
        else
          (h.1, .refused g ⟨g.token, g.destination, successor (lastSet h.2 g.routeKey), g.index⟩)) ∧
    (∀ (later : List Call) (k : RouteKey), (∀ c ∈ later, c.resumes k = false) →
      let h := ({} : Sequencer).feed past
      let seen := acceptedOn k (h.1.feed later).2
      seen.map UInt64.toNat =
          (List.range seen.length).map (fun i => min ((lastSet h.2 k).toNat + i + 1) (UInt64.size - 1)) ∧
        ((lastSet h.2 k).toNat + seen.length < UInt64.size → seen.Nodup)) := by
  refine ⟨fun g => ?_, fun later k hk => ?_⟩
  · simp only
    rw [← lastIndex_feed_empty]
    exact call_observe _ g
  · simp only
    rw [← lastIndex_feed_empty]
    exact ⟨accepted_count_up _ later k hk, accepted_nodup _ later k hk⟩

/-- Two transfers on a fresh route, numbered 1 and 2, are counted from its last index 0. -/
theorem fresh_route_counts_up :
    let later := [Call.observe { index := 1 }, .observe { index := 2 }]
    let k : RouteKey := ⟨Address.zero, 0⟩
    (∀ c ∈ later, c.resumes k = false) ∧
      let h := ({} : Sequencer).feed []
      let seen := acceptedOn k (h.1.feed later).2
      seen.map UInt64.toNat =
          (List.range seen.length).map (fun i => min ((lastSet h.2 k).toNat + i + 1) (UInt64.size - 1)) ∧
        ((lastSet h.2 k).toNat + seen.length < UInt64.size → seen.Nodup) := by
  intro later k
  have hk : ∀ c ∈ later, c.resumes k = false := by
    intro c hc
    simp only [later, List.mem_cons, List.not_mem_nil, or_false] at hc
    rcases hc with rfl | rfl <;> rfl
  exact ⟨hk, (sequencer_law []).2 later k hk⟩

/-- The largest `u64` is its own successor: a route resumed there accepts a transfer of that
index, and then the same transfer again, although its index is not one more than the last. -/
theorem max_index_accepted_twice :
    let g : TransferLog := { index := UInt64.ofNat (UInt64.size - 1) }
    (({} : Sequencer).feed [.resume g.routeKey g.index, .observe g, .observe g]).2 =
        [.resumed g.routeKey g.index, .accepted g, .accepted g] ∧
      g.index.toNat ≠ g.index.toNat + 1 := by
  intro g
  -- at the top the expected index is the last one itself, so the same index passes each time
  have hstay : g.index.toNat = min (g.index.toNat + 1) (UInt64.size - 1) := by decide
  refine ⟨?_, by omega⟩
  simp only [feed, call_resume, call_observe, lastIndex_resume_self, if_pos hstay]

end Sequencer

end TokenBridge
