import StackExpr.Proofs.Job.Compositional
import StackExpr.Proofs.Job.Ensures
/-!
# Jobs that end alike, up to giving up

An evaluation gives up where expressions lead to each other too often. Two evaluations of the same
expression with different depths are then put together in the same way, and differ only in where
they give up. `job.Follows w first second job'` says that `job'` can end only as `job` can end.
There are two ways out: if `first` holds, `job'` may end in any way as soon as `job` can give up;
and if `second` holds, `job'` may give up. **This is compositional** (`Job.follows_compositional`).
-/

namespace StackExpr.Job

variable {α β : Type} {w : World} {first second : Prop}

/-- A condition that results satisfy up to giving up. -/
def UpTo (first second : Prop) (Q : Except Failure α → Prop) (r : Except Failure α) : Prop :=
  Q r ∨ first ∧ Q (.error .tooDeep) ∨ second ∧ r = .error .tooDeep

/-- One job can end only as another, up to giving up. -/
def Follows (w : World) (first second : Prop) (job job' : Job α) : Prop :=
  ∀ Q, job.Ensures w Q → job'.Ensures w (UpTo first second Q)

theorem ensures_true (job : Job α) {Q : Except Failure α → Prop} (h : ∀ r, Q r) :
    job.Ensures w Q := (ensures_canEnd job).mono fun r _ => h r

theorem follows_refl (job : Job α) : job.Follows w first second job :=
  fun _ hQ => hQ.mono fun _ => Or.inl

theorem follows_bind {job job' : Job α} {f f' : α → Job β} (h : job.Follows w first second job')
    (hf : ∀ a, (f a).Follows w first second (f' a)) :
    (job.bind f).Follows w first second (job'.bind f') := by
  intro Q hQ
  refine ensures_bind (fun a ha => ?_) (fun e he => ?_) (h _ (ensures_of_bind hQ))
  · rcases ha with ha | ha | ⟨-, ha⟩
    · exact hf a Q ha
    · exact ensures_true _ fun _ => Or.inr (Or.inl ha)
    · cases ha
  · rcases he with he | he | ⟨hs, he⟩
    · exact Or.inl he
    · exact Or.inr (Or.inl he)
    · exact Or.inr (Or.inr ⟨hs, congrArg Except.error (Except.error.inj he)⟩)

/-! ## Jobs side by side -/

/-- A job may give up before which all others can have values. -/
def GivesUpFirst (Ps : List (Except Failure Json → Prop)) : Prop :=
  ∃ before P after, Ps = before ++ P :: after ∧ P (.error .tooDeep) ∧
    ∀ P' ∈ before, ∃ v, P' (.ok v)

/-- Where values are reached up to giving up, they are reached, or one job may give up first. -/
theorem values_or_givesUpFirst {Ps : List (Except Failure Json → Prop)}
    (h : ∀ P ∈ Ps, ∃ v, UpTo first second P (.ok v)) :
    (first ∧ GivesUpFirst Ps) ∨
      ∀ P ∈ Ps, (∃ v, P (.ok v)) ∧ ∀ v, UpTo first second P (.ok v) → P (.ok v) := by
  induction Ps with
  | nil => exact Or.inr (by simp)
  | cons P Ps ih =>
    obtain ⟨⟨v, hv⟩, hPs⟩ := List.forall_mem_cons.mp h
    by_cases hP : first ∧ P (.error .tooDeep)
    · exact Or.inl ⟨hP.1, [], P, Ps, rfl, hP.2, by simp⟩
    · have hvalue : ∀ v, UpTo first second P (.ok v) → P (.ok v) := by
        rintro v (hv | hv | ⟨-, hv⟩)
        · exact hv
        · exact absurd hv hP
        · cases hv
      rcases ih hPs with ⟨hfirst, before, P', after, rfl, hP', hbefore⟩ | hvalues
      · exact Or.inl ⟨hfirst, P :: before, P', after, rfl, hP',
          List.forall_mem_cons.mpr ⟨⟨v, hvalue v hv⟩, hbefore⟩⟩
      · exact Or.inr (List.forall_mem_cons.mpr ⟨⟨⟨v, hvalue v hv⟩, hvalue⟩, hvalues⟩)

/-- Jobs that follow others ensure what these ensure, up to giving up. -/
theorem forall₂_ensures_upTo {parts parts' : List (Job Json)}
    {Ps : List (Except Failure Json → Prop)}
    (h : List.Forall₂ (Follows w first second) parts parts')
    (hp : List.Forall₂ (Ensures w) parts Ps) :
    List.Forall₂ (Ensures w) parts' (Ps.map (UpTo first second)) := by
  rw [List.forall₂_map_right_iff]
  induction h generalizing Ps with
  | nil => cases hp; exact .nil
  | cons hjob _ ih =>
    cases hp with
    | cons hP hPs => exact .cons (hjob _ hP) (ih hPs)

theorem follows_all {parts parts' : List (Job Json)}
    (h : List.Forall₂ (Follows w first second) parts parts') :
    (all parts).Follows w first second (all parts') := by
  rintro Q ⟨Ps, hp, hv, he⟩
  refine ensures_all (forall₂_ensures_upTo h (ensuresAll_iff.mp hp)) (fun vs hvs => ?_) ?_
  · rw [List.forall₂_map_left_iff] at hvs
    rcases values_or_givesUpFirst (forall_of_forall₂ (hvs.imp fun P v hP => ⟨v, hP⟩)) with
      ⟨hfirst, before, P, after, hPs, hP, hbefore⟩ | hvalues
    · exact Or.inr (Or.inl ⟨hfirst, he before P after _ hPs hP (Or.inr hbefore)⟩)
    · refine Or.inl (hv vs ?_)
      exact ((List.forall₂_and_left _ _).mpr ⟨hvalues, hvs⟩).imp fun P v hP => hP.1.2 v hP.2
  · intro before' P' after' e hPs hP' hc
    obtain ⟨before, _, rfl, rfl, hcons⟩ := List.map_eq_append_iff.mp hPs
    obtain ⟨P, after, rfl, rfl, rfl⟩ := List.map_eq_cons_iff.mp hcons
    -- A failure of the part has its say, or an earlier part may give up.
    have hfails : ∀ e, P (.error e) → Q (.error e) ∨ first ∧ Q (.error .tooDeep) := by
      intro e hP
      rcases hc with hc | hc
      · exact Or.inl (he before P after e rfl hP (Or.inl (by simpa using hc)))
      · have hbefore : ∀ P ∈ before, ∃ v, UpTo first second P (.ok v) :=
          fun P hP => hc _ (List.mem_map_of_mem hP)
        rcases values_or_givesUpFirst hbefore with
          ⟨hfirst, earlier, P₁, later, rfl, hP₁, hearlier⟩ | hvalues
        · exact Or.inr ⟨hfirst, he earlier P₁ (later ++ P :: after) _ (by simp) hP₁
            (Or.inr hearlier)⟩
        · exact Or.inl (he before P after e rfl hP (Or.inr fun P' hP' => (hvalues P' hP').1))
    rcases hP' with hP | ⟨hfirst, hP⟩ | ⟨hsecond, he⟩
    · exact (hfails e hP).imp_right Or.inl
    · exact Or.inr (Or.inl ⟨hfirst, (hfails _ hP).elim (fun hQ => hQ) fun hQ => hQ.2⟩)
    · cases he
      exact Or.inr (Or.inr ⟨hsecond, rfl⟩)

theorem follows_outcome {part part' : Job Json} (h : part.Follows w first second part') :
    (outcome part).Follows w first second (outcome part') := by
  rintro Q ⟨P, hp, hr, he⟩
  refine ⟨UpTo first second P, h P hp, fun r hP => ?_, fun e hne hP => ?_⟩
  · rcases hP with hP | ⟨hfirst, hP⟩ | ⟨-, hP⟩
    · exact Or.inl (hr r hP)
    · exact Or.inr (Or.inl ⟨hfirst, he _ (fun e' he' => nomatch he') hP⟩)
    · cases r <;> cases hP
  · rcases hP with hP | ⟨hfirst, hP⟩ | ⟨hsecond, he⟩
    · exact Or.inl (he e hne hP)
    · exact Or.inr (Or.inl ⟨hfirst, he _ (fun e' he' => nomatch he') hP⟩)
    · cases he
      exact Or.inr (Or.inr ⟨hsecond, rfl⟩)

/-- **What is put together in the same way from jobs that follow others follows what is put together
from these.** -/
theorem follows_compositional (w : World) (among : Nat → Prop) (first second : Prop) :
    Compositional w.opened among fun _ => Follows w first second where
  done _ _ := follows_refl _
  openStack h := fun Q hQ id hid => h id hid Q (hQ id hid)
  query _ _ := follows_refl _
  all h := follows_all h
  outcome h := follows_outcome h
  bind h hf := follows_bind h hf

end StackExpr.Job
