import StackExpr.Proofs.Completion
import StackExpr.Proofs.Script
/-!
# Parts that are gathered alone

A job may go on with the value of a part, or it may gather this part alone and go on with the list
of its value. If it goes on to the same thing either way, or fails for want of a value either way,
then **both jobs end alike**: with the same result, or both without a value (`EndsAlike`).

* Run in the same session they leave the same session (`Job.endsAlike_run`).
* In a run of operations each may stand in the place of the other. One goes on as the other does,
  with the same events (`Job.Matched.exists_moves`, `Job.Matched.exists_moves_back`), and
  **an operation may be replaced by another that can go on as it does** (`Run.exchanged`).
-/

namespace StackExpr

/-- Two results that differ at most in the reason why there is no value. -/
inductive EndsAlike {α : Type} : Except Failure α → Except Failure α → Prop where
  | same (r : Except Failure α) : EndsAlike r r
  | valueless (e e' : EvalError) : EndsAlike (.error (.evaluation e)) (.error (.evaluation e'))

namespace Job

variable {α : Type} {f : Json → Job α} {g : List Json → Job α} {a b : Job α}

/-- What goes on with a value and what goes on with a list are the same for a list of one value, or
fail both for want of a value. -/
def GoOnAlike (f : Json → Job α) (g : List Json → Job α) : Prop :=
  ∀ v, f v = g [v] ∨ ∃ e e', f v = fail e ∧ g [v] = fail e'

/-- One job goes on with the value of a part and the other gathers the part, or both have gone on,
to the same job or to failures. -/
inductive Matched (f : Json → Job α) (g : List Json → Job α) : Job α → Job α → Prop where
  | underWay (part : Job Json) : Matched f g (part.bind f) (gather [part] g)
  | same (job : Job α) : Matched f g job job
  | failed (e e' : EvalError) : Matched f g (fail e) (fail e')

theorem GoOnAlike.matched (h : GoOnAlike f g) (v : Json) : Matched f g (f v) (g [v]) := by
  rcases h v with h | ⟨e, e', he, he'⟩
  · rw [h]
    exact .same _
  · rw [he, he']
    exact .failed e e'

/-! ## Steps -/

/-- A step of a part that is gathered alone. -/
theorem step_gather_singleton (client : Client) (g : List Json → Job α) (part : Job Json)
    (s : Session) : step client (gather [part] g) s = match (step client part s).1.result? with
      | some (.ok v) => step client (g [v]) (step client part s).2
      | some (.error e) => (done (.error e), (step client part s).2)
      | none => (gather [(step client part s).1] g, (step client part s).2) := by
  rw [step, stepParts]
  rcases step client part s with ⟨part', s'⟩
  cases part' with
  | done r => cases r <;> rfl
  | _ => rfl

/-- **Matched jobs take the same steps.** After a step of both, one has ended if the other has. -/
theorem Matched.step (client : Client) (hfg : GoOnAlike f g) (h : Matched f g a b) (s : Session) :
    ∃ a' b' s', Job.step client a s = (a', s') ∧ Job.step client b s = (b', s') ∧
      Matched f g a' b' ∧ (b'.result? = none → a'.result? = none) := by
  cases h with
  | same job => exact ⟨_, _, _, rfl, rfl, .same _, fun h => h⟩
  | failed e e' => exact ⟨_, _, _, rfl, rfl, .failed e e', fun h => nomatch h⟩
  | underWay part =>
    rw [step_bind, step_gather_singleton]
    rcases Job.step client part s with ⟨part', s'⟩
    cases part' with
    | done r =>
      cases r with
      | error e => exact ⟨_, _, _, rfl, rfl, .same _, fun h => nomatch h⟩
      | ok v =>
        show ∃ a' b' s'', Job.step client (f v) s' = (a', s'') ∧
          Job.step client (g [v]) s' = (b', s'') ∧ _
        rcases hfg v with h | ⟨e, e', he, he'⟩
        · rw [h]
          exact ⟨_, _, _, rfl, rfl, .same _, fun h => h⟩
        · rw [he, he']
          exact ⟨_, _, _, rfl, rfl, .failed e e', fun h => nomatch h⟩
    | _ => exact ⟨_, _, _, rfl, rfl, .underWay _, fun _ => rfl⟩

/-- Matched jobs take the same rounds. -/
theorem Matched.rounds (client : Client) (hfg : GoOnAlike f g) (h : Matched f g a b)
    (hended : b.result? = none → a.result? = none) (n : Nat) (s : Session) :
    ∃ a' b' s', Job.rounds client n [a] s = ([a'], s') ∧ Job.rounds client n [b] s = ([b'], s') ∧
      Matched f g a' b' ∧ (b'.result? = none → a'.result? = none) := by
  induction n generalizing a b s with
  | zero => exact ⟨a, b, s, rfl, rfl, h, hended⟩
  | succ n ih =>
    obtain ⟨a', b', s', ha, hb, h', hended'⟩ := h.step client hfg s
    rw [rounds_singleton, rounds_singleton, ha, hb]
    exact ih h' hended' s'

/-- Where matched jobs are given up together, they end alike. -/
theorem Matched.endsAlike (h : Matched f g a b) (hended : b.result? = none → a.result? = none) :
    EndsAlike (a.result?.getD (.error .tooDeep)) (b.result?.getD (.error .tooDeep)) := by
  cases h with
  | underWay part =>
    rw [hended rfl]
    exact .same _
  | same job => exact .same _
  | failed e e' => exact .valueless e e'

/-- **A job that goes on with the value of a part, and one that gathers the part alone, end alike
and leave the same session.** -/
theorem endsAlike_run (client : Client) (hfg : GoOnAlike f g) (part : Job Json) (s : Session) :
    ((part.bind f).run client s).2 = ((gather [part] g).run client s).2 ∧
      EndsAlike ((part.bind f).run client s).1 ((gather [part] g).run client s).1 := by
  obtain ⟨n, hn⟩ : ∃ n, patience = n + 1 := ⟨UInt64.size - 1, rfl⟩
  obtain ⟨a, b, s₁, ha, hb, h, hended⟩ := (Matched.underWay part).step client hfg s
  obtain ⟨a', b', s', ha', hb', h', hended'⟩ := h.rounds client hfg hended n s₁
  rw [run, run, hn, rounds_singleton, rounds_singleton, ha, hb, ha', hb']
  exact ⟨rfl, h'.endsAlike hended'⟩

/-! ## Moves -/

theorem nil_of_append_eq_singleton {part job : Job Json} {before after : List (Job Json)}
    (h : [part] = before ++ job :: after) : before = [] ∧ part = job ∧ after = [] := by
  cases before with
  | nil =>
    obtain ⟨hpart, hafter⟩ := List.cons.inj h
    exact ⟨rfl, hpart, hafter.symm⟩
  | cons b before => simp at h

section Moves

variable {client : Client} {s s' : Session} {events : List Event}

/-- What a part that is gathered alone can do next. There is nothing to call off when it fails. -/
theorem move_gather_singleton {part : Job Json} (hm : Move client (gather [part] g) s events b s') :
    (∃ part', Move client part s events part' s' ∧ b = gather [part'] g) ∨
    events = [] ∧ s' = s ∧ ((∃ v, part = done (.ok v) ∧ b = g [v]) ∨
      ∃ e, part = done (.error e) ∧ b = done (.error e)) := by
  generalize hparts : [part] = parts at hm
  cases hm with
  | part before after hm =>
    obtain ⟨rfl, rfl, rfl⟩ := nil_of_append_eq_singleton hparts
    exact Or.inl ⟨_, hm, rfl⟩
  | @gathered _ _ _ _ vs hvs =>
    rw [mapM_value?_eq_some] at hvs
    obtain ⟨v, rfl, hv⟩ := List.map_eq_singleton_iff.mp (hparts.trans hvs).symm
    exact Or.inr ⟨rfl, rfl, Or.inl ⟨v, hv.symm, rfl⟩⟩
  | calledOff order ho hc =>
    obtain ⟨rfl, rfl, rfl⟩ := nil_of_append_eq_singleton hparts
    obtain rfl := ho.eq_nil
    exact Or.inr ⟨rfl, rfl, Or.inr ⟨_, rfl, rfl⟩⟩

/-- **What goes on with the value of a part is followed by what gathers the part.** -/
theorem Matched.exists_moves (hfg : GoOnAlike f g) (h : Matched f g a b) {a' : Job α}
    (hm : Move client a s events a' s') :
    ∃ b', Moves client b s events b' s' ∧ Matched f g a' b' := by
  cases h with
  | same job => exact ⟨a', .single hm, .same a'⟩
  | failed e e' => cases hm
  | underWay part =>
    rcases hm.of_bind with ⟨part', hmoved, rfl⟩ | ⟨v, rfl, hmoved⟩
    · exact ⟨_, .single (.part [] [] hmoved), .underWay part'⟩
    · -- The part has its value already, so the other goes on with it first.
      rcases hfg v with hv | ⟨e, e', he, -⟩
      · rw [hv] at hmoved
        exact ⟨a', .cons (.gathered rfl) (.single hmoved), .same a'⟩
      · rw [he] at hmoved
        cases hmoved

/-- **What gathers a part is followed by what goes on with the value of the part.** -/
theorem Matched.exists_moves_back (hfg : GoOnAlike f g) (h : Matched f g a b) {b' : Job α}
    (hm : Move client b s events b' s') :
    ∃ a', Moves client a s events a' s' ∧ Matched f g a' b' := by
  cases h with
  | same job => exact ⟨b', .single hm, .same b'⟩
  | failed e e' => cases hm
  | underWay part =>
    rcases move_gather_singleton hm with ⟨part', hmoved, rfl⟩ | ⟨rfl, rfl, hended⟩
    · exact ⟨_, .single (hmoved.bind f), .underWay part'⟩
    · rcases hended with ⟨v, rfl, rfl⟩ | ⟨e, rfl, rfl⟩
      · exact ⟨_, .none _ _, hfg.matched v⟩
      · exact ⟨_, .none _ _, .same _⟩

/-- Where the one that goes on with the value of a part has ended, the other can end alike. -/
theorem Matched.exists_end (client : Client) (hfg : GoOnAlike f g) {r : Except Failure α}
    (h : Matched f g (done r) b) : ∃ r', Moves client b s [] (done r') s ∧ EndsAlike r r' := by
  generalize ha : done r = a at h
  cases h with
  | same job => exact ⟨r, ha ▸ .none _ _, .same r⟩
  | failed e e' =>
    cases ha
    exact ⟨_, .none _ _, .valueless e e'⟩
  | underWay part =>
    rcases bind_eq_done ha.symm with ⟨e, rfl, rfl⟩ | ⟨v, rfl, hv⟩
    · have hoff : Move client (gather ([] ++ done (.error e) :: []) g) s [] (done (.error e)) s :=
        .calledOff [] .nil (Or.inl (by simp [shortLength]))
      exact ⟨_, .single hoff, .same _⟩
    · have hgathered : Moves client (gather [done (.ok v)] g) s [] (g [v]) s :=
        .single (.gathered rfl)
      rcases hfg v with hg | ⟨e, e', he, he'⟩
      · rw [← hg, hv] at hgathered
        exact ⟨r, hgathered, .same r⟩
      · rw [he'] at hgathered
        cases hv.symm.trans he
        exact ⟨_, hgathered, .valueless e e'⟩

/-- Where the one that gathers a part has ended, the other has ended alike. -/
theorem Matched.ended {r' : Except Failure α} (h : Matched f g a (done r')) :
    ∃ r, a = done r ∧ EndsAlike r r' := by
  generalize hb : done r' = b at h
  cases h with
  | same job => exact ⟨r', hb.symm, .same r'⟩
  | failed e e' =>
    cases hb
    exact ⟨_, rfl, .valueless e e'⟩
  | underWay part => cases hb

end Moves

end Job

/-! ## Runs -/

section Runs

variable {client : Client} {log : List Event} {others : Multiset Task} {s : Session}

/-- **An operation may be replaced by another that goes on as it does.** -/
theorem Run.exchanged {op : Operation} {job : Job op.Answer} {own : List Event}
    (h : Run client log (⟨op, job, own⟩ ::ₘ others) s) (op' : Operation)
    (R : Job op.Answer → Job op'.Answer → Prop) (hjob : R op.job op'.job)
    (hmove : ∀ {a a' : Job op.Answer} {b : Job op'.Answer} {events : List Event}
      {s s' : Session}, R a b → a.Move client s events a' s' →
      ∃ b', b.Moves client s events b' s' ∧ R a' b') :
    ∃ b, R job b ∧ Run client log (⟨op', b, own⟩ ::ₘ others) s := by
  obtain ⟨pieces, ⟨b, hb, rfl⟩, h⟩ := h.exists_pieces
    (R := fun a own pieces => ∃ b, R a b ∧ pieces = ⟨op', b, own⟩ ::ₘ 0)
    (fun h => ⟨_, ⟨_, hjob, rfl⟩, by simpa using h.begun op'⟩)
    (fun ⟨b, hb, hpieces⟩ hm h => by
      obtain ⟨b', hms, hb'⟩ := hmove hb hm
      rw [hpieces, Multiset.cons_add, zero_add] at h
      exact ⟨_, ⟨b', hb', rfl⟩, by simpa using h.moves hms⟩) rfl
  exact ⟨b, hb, by simpa using h⟩

end Runs

end StackExpr
