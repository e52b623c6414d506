import StackExpr.Proofs.Caches
/-!
# The traffic of a session

`Traffic client log readers s` says that the session `s` can come about by opening stacks and by the
steps of readers at the caches of the stacks that were opened. Each of the caches then sees nothing
but its own part of it: **what happens at one number is the traffic of one stack**
(`Traffic.toCaches`).
-/

namespace StackExpr

/-- What may have happened in a session, who is still there, and the session then. -/
inductive Traffic (client : Client) : List Event → Multiset Reader → Session → Prop where
  | quiet : Traffic client [] 0 {}
  /-- A stack is opened. -/
  | opened {log : List Event} {readers : Multiset Reader} {s : Session} (stack region : String)
    (h : Traffic client log readers s) : Traffic client log readers (s.openStack stack region).2
  /-- A reader arrives. -/
  | arrived {log : List Event} {readers : Multiset Reader} {s : Session} (id : Nat) (q : Query)
    (h : Traffic client log readers s) :
    Traffic client log (⟨id, q, .arriving⟩ ::ₘ readers) s
  /-- A reader goes on. -/
  | advanced {log : List Event} {readers : Multiset Reader} {s : Session} {r : Reader}
    {c c' : Caches} {progress : Progress r.query.Answer} {made : Requests}
    (hc : s.caches[r.caches]? = some c)
    (ha : c.advance client r.phase s.requests r.query = (progress, c', made))
    (h : Traffic client log (r ::ₘ readers) s) :
    Traffic client (log ++ c.events client r.caches r.query r.phase progress)
      (r.after progress + readers) ⟨made, s.caches.set r.caches c'⟩
  /-- A reader is called off. -/
  | left {log : List Event} {readers : Multiset Reader} {s : Session} {r : Reader}
    (h : Traffic client log (r ::ₘ readers) s) :
    Traffic client log readers (s.release r.caches r.phase r.query)

theorem Reader.caches_after {r r' : Reader} {progress : Progress r.query.Answer}
    (h : r' ∈ r.after progress) : r'.caches = r.caches := by
  cases hp : progress.phase? with
  | none => simp [Reader.after, hp] at h
  | some p =>
    simp only [Reader.after, hp, Option.elim_some, Multiset.mem_singleton] at h
    rw [h]

/-- Everything that happens when a reader goes on happens at its caches. -/
theorem Caches.caches_of_mem_events {c : Caches} {client : Client} {id : Nat} {q : Query}
    {p : Phase} {progress : Progress q.Answer} :
    ∀ e ∈ c.events client id q p progress, e.caches = id := by
  intro e he
  rcases List.mem_append.mp he with he | he
  · unfold outcome at he
    split at he
    · split at he <;> rw [List.mem_singleton.mp he] <;> rfl
    · cases he
  · unfold reaction at he
    split at he
    · rw [List.mem_singleton.mp he]; rfl
    · rw [List.mem_singleton.mp he]; rfl
    · cases he

/-! ## What concerns one stack -/

/-- What happens at caches with a number. -/
def logAt (log : List Event) (id : Nat) : List Event := log.filter fun e => e.caches = id

theorem mem_logAt {log : List Event} {id : Nat} {e : Event} :
    e ∈ logAt log id ↔ e ∈ log ∧ e.caches = id := by
  simp [logAt]

/-- The readers at caches with a number. -/
def readersAt (readers : Multiset Reader) (id : Nat) : Multiset Reader :=
  readers.filter fun r => r.caches = id

theorem readersAt_cons_self (readers : Multiset Reader) (r : Reader) :
    readersAt (r ::ₘ readers) r.caches = r ::ₘ readersAt readers r.caches :=
  Multiset.filter_cons_of_pos _ rfl

theorem readersAt_cons_of_ne {readers : Multiset Reader} {r : Reader} {id : Nat}
    (h : r.caches ≠ id) : readersAt (r ::ₘ readers) id = readersAt readers id :=
  Multiset.filter_cons_of_neg _ h

theorem readersAt_after (readers : Multiset Reader) (r : Reader)
    (progress : Progress r.query.Answer) :
    readersAt (r.after progress + readers) r.caches
      = r.after progress + readersAt readers r.caches := by
  rw [readersAt, Multiset.filter_add, Multiset.filter_eq_self.mpr fun _ h => Reader.caches_after h]
  rfl

theorem readersAt_after_of_ne {readers : Multiset Reader} {r : Reader} {id : Nat}
    (progress : Progress r.query.Answer) (h : r.caches ≠ id) :
    readersAt (r.after progress + readers) id = readersAt readers id := by
  rw [readersAt, Multiset.filter_add, Multiset.filter_eq_nil.mpr fun _ hr => ?_, Multiset.zero_add]
  · rfl
  · rw [Reader.caches_after hr]
    exact h

theorem logAt_append_events (log : List Event) (c : Caches) (client : Client) (id : Nat) (q : Query)
    (p : Phase) (progress : Progress q.Answer) :
    logAt (log ++ c.events client id q p progress) id
      = logAt log id ++ c.events client id q p progress := by
  have hall : logAt (c.events client id q p progress) id = c.events client id q p progress :=
    List.filter_eq_self.mpr fun e he => by simp [Caches.caches_of_mem_events e he]
  rw [logAt, List.filter_append]
  exact congrArg _ hall

theorem logAt_append_events_of_ne (log : List Event) (c : Caches) (client : Client) {id i : Nat}
    (q : Query) (p : Phase) (progress : Progress q.Answer) (h : i ≠ id) :
    logAt (log ++ c.events client i q p progress) id = logAt log id := by
  have hnil : logAt (c.events client i q p progress) id = [] :=
    List.filter_eq_nil_iff.mpr fun e he => by simpa [Caches.caches_of_mem_events e he] using h
  rw [logAt, List.filter_append]
  exact (congrArg _ hnil).trans (List.append_nil _)

namespace Traffic

variable {client : Client} {log : List Event} {readers : Multiset Reader} {s : Session}

/-- Nobody gets anywhere at caches that were not opened. -/
theorem arriving_of_le (h : Traffic client log readers s) :
    ∀ r ∈ readers, s.caches.length ≤ r.caches → r.phase = .arriving := by
  induction h with
  | quiet => exact fun r hr => absurd hr (Multiset.notMem_zero r)
  | opened stack region h ih =>
    intro r hr hle
    simp only [Session.openStack, List.length_append, List.length_singleton] at hle
    exact ih r hr (by omega)
  | arrived id q h ih =>
    intro r hr hle
    rcases Multiset.mem_cons.mp hr with rfl | hr
    · rfl
    · exact ih r hr hle
  | @advanced log readers s r c c' progress made hc ha h ih =>
    intro r' hr' hle
    rw [List.length_set] at hle
    rcases Multiset.mem_add.mp hr' with hr' | hr'
    · rw [Reader.caches_after hr', ← List.getElem?_eq_none_iff, hc] at hle
      cases hle
    · exact ih r' (Multiset.mem_cons_of_mem hr') hle
  | left h ih =>
    intro r hr hle
    simp only [Session.release, List.length_modify] at hle
    exact ih r (Multiset.mem_cons_of_mem hr) hle

/-- Nothing happens at caches that were not opened. -/
theorem log_caches_lt (h : Traffic client log readers s) :
    ∀ e ∈ log, e.caches < s.caches.length := by
  induction h with
  | quiet => exact fun e he => absurd he List.not_mem_nil
  | opened stack region h ih =>
    intro e he
    have := ih e he
    simp only [Session.openStack, List.length_append, List.length_singleton]
    omega
  | arrived id q h ih => exact ih
  | @advanced log readers s r c c' progress made hc ha h ih =>
    intro e he
    rw [List.length_set]
    rcases List.mem_append.mp he with he | he
    · exact ih e he
    · rw [Caches.caches_of_mem_events e he]
      exact (List.getElem?_eq_some_iff.mp hc).1
  | left h ih =>
    intro e he
    simp only [Session.release, List.length_modify]
    exact ih e he

/-- The log holds every request that was made. -/
theorem count_requests (h : Traffic client log readers s) (kind : RequestKind) :
    s.requests.count kind = log.countP (Event.asksFor kind) := by
  induction h with
  | quiet => cases kind <;> rfl
  | opened stack region h ih => exact ih
  | arrived id q h ih => exact ih
  | @advanced log readers s r c c' progress made hc ha h ih =>
    rw [List.countP_append, ← ih]
    exact (Caches.advance_step ha).count_requests r.caches kind
  | left h ih => exact ih

/-- **What happens at caches with one number is the traffic of one stack.** -/
theorem toCaches (h : Traffic client log readers s) {id : Nat} {c : Caches}
    (hc : s.caches[id]? = some c) :
    c.Traffic client id (logAt log id) (readersAt readers id) := by
  induction h generalizing c with
  | quiet => simp at hc
  | @opened log readers s stack region h ih =>
    simp only [Session.openStack] at hc
    rcases Nat.lt_or_ge id s.caches.length with hid | hid
    · rw [List.getElem?_append_left hid] at hc
      exact ih hc
    · -- The stack that was opened: its number is new, nothing has happened there.
      have hlog : logAt log id = [] := List.filter_eq_nil_iff.mpr fun e he => by
        have := h.log_caches_lt e he
        simp; omega
      rw [List.getElem?_append_right hid, List.getElem?_singleton] at hc
      split at hc
      · rw [hlog, ← Option.some.inj hc]
        refine .of_arriving stack region fun r hr => ?_
        obtain ⟨hmem, rfl⟩ := Multiset.mem_filter.mp hr
        exact ⟨rfl, h.arriving_of_le r hmem hid⟩
      · cases hc
  | @arrived log readers s i q h ih =>
    by_cases hi : i = id
    · subst hi
      rw [readersAt_cons_self _ (⟨i, q, .arriving⟩ : Reader)]
      exact .arrived q (ih hc)
    · rw [readersAt_cons_of_ne hi]
      exact ih hc
  | @advanced log readers s r c₀ c' progress made hc₀ ha h ih =>
    by_cases hid : r.caches = id
    · subst hid
      have ih := ih hc₀
      rw [readersAt_cons_self] at ih
      rw [List.getElem?_set_self (List.getElem?_eq_some_iff.mp hc₀).1] at hc
      rw [readersAt_after, logAt_append_events, ← Option.some.inj hc]
      exact .advanced (Caches.advance_step ha) ih
    · -- A reader at other caches: neither its place nor its events are seen here.
      rw [List.getElem?_set_ne hid] at hc
      have ih := ih hc
      rw [readersAt_cons_of_ne hid] at ih
      rw [readersAt_after_of_ne progress hid, logAt_append_events_of_ne _ _ _ _ _ _ hid]
      exact ih
  | @left log readers s r h ih =>
    simp only [Session.release, List.getElem?_modify] at hc
    obtain ⟨c₀, hc₀, rfl⟩ := Option.map_eq_some_iff.mp hc
    have ih := ih hc₀
    by_cases hid : r.caches = id
    · subst hid
      rw [readersAt_cons_self] at ih
      rw [if_pos rfl]
      exact .left ih
    · rw [readersAt_cons_of_ne hid] at ih
      rw [if_neg hid]
      exact ih

end Traffic

end StackExpr
