import GuestShell.Shell.Dispatch
import GuestShell.Proofs.Task.Runs

/-!
# Runs of the shell

What the shell does is a shared task, and a part of a line that may stop it ends with a value or with
the error that stops the line.  The lemmas here take a run of such a part to pieces, one for each way
of putting parts together.

`Plain` is what most parts are: they leave the files and the registered commands alone, as long as
nobody else touches them (`Undisturbed`), and they call no command.  Looking a program up is plain, and
so is whatever goes on in the context of the shell (`plain_look`, `plain_inContext`).
-/

namespace GuestShell.Shell

open SharedTask

variable {κ ρ α β : Type} {s s' u : Shell κ}

/-- What passes between the shell and its surroundings. -/
abbrev Log (κ ρ : Type) : Type := SharedTask.Log (Shell κ) (Request κ ρ) Answer

variable {log : Log κ ρ}

/-! ## Parts that may stop the line -/

section Stopping

variable {r : Except DispatchError α}

lemma ran_run_unstopped_iff {t : Dispatching κ ρ α} :
    Ran (unstopped t).run s log r s' ↔ ∃ a, r = .ok a ∧ Ran t s log a s' := by
  have hlift : (unstopped t).run = t >>= fun a => pure (.ok a) := map_eq_pure_bind _ _
  rw [hlift, ran_bind_iff]
  constructor
  · rintro ⟨a, u, before, after, rfl, hbefore, hafter⟩
    obtain ⟨rfl, rfl, rfl⟩ := ran_pure_iff.1 hafter
    exact ⟨a, rfl, by rwa [List.append_nil]⟩
  · rintro ⟨a, rfl, h⟩
    exact ⟨a, s', log, [], (List.append_nil _).symm, h, ran_pure_iff.2 ⟨rfl, rfl, rfl⟩⟩

end Stopping

lemma ran_ask_iff {q : Request κ ρ} {a : Answer q} :
    Ran (ask q) s log a s' ↔ log = [⟨(q, s), (a, s')⟩] :=
  ran_request_iff

/-! ## Plain parts -/

/-- The same files and the same registered commands. -/
structure Alike (s s' : Shell κ) : Prop where
  files : s'.files = s.files
  registry : s'.registry = s.registry

lemma Alike.refl (s : Shell κ) : Alike s s := ⟨rfl, rfl⟩

lemma Alike.trans (h : Alike s u) (h' : Alike u s') : Alike s s' :=
  ⟨h'.files.trans h.files, h'.registry.trans h.registry⟩

/-- While they answer, the surroundings leave the files and the registered commands alone. -/
def Undisturbed (log : Log κ ρ) : Prop := ∀ e ∈ log, Alike e.1.2 e.2.2

lemma undisturbed_append_iff {before after : Log κ ρ} :
    Undisturbed (before ++ after) ↔ Undisturbed before ∧ Undisturbed after :=
  List.forall_mem_append

/-- The calls of commands in a log: what was called, its arguments and its input. -/
def invocations (log : Log κ ρ) : List (κ × List String × Option String) :=
  log.filterMap fun e =>
    match e.1.1 with
    | .invoke c args input => some (c, args, input)
    | _ => none

lemma invocations_append (before after : Log κ ρ) :
    invocations (before ++ after) = invocations before ++ invocations after :=
  List.filterMap_append

/-- The part calls no command and leaves files and commands alone. -/
structure Plain (t : Dispatching κ ρ α) : Prop where
  alike : ∀ {s log a s'}, Ran t s log a s' → Undisturbed log → Alike s s'
  no_invocation : ∀ {s log a s'}, Ran t s log a s' → invocations log = []

lemma plain_pure (a : α) : Plain (pure a : Dispatching κ ρ α) where
  alike h _ := by
    obtain ⟨-, -, rfl⟩ := ran_pure_iff.1 h
    exact .refl _
  no_invocation h := by
    obtain ⟨rfl, -, -⟩ := ran_pure_iff.1 h
    rfl

lemma plain_get : Plain (get : Dispatching κ ρ (Shell κ)) where
  alike h _ := by
    obtain ⟨-, -, rfl⟩ := ran_get_iff.1 h
    exact .refl _
  no_invocation h := by
    obtain ⟨rfl, -, -⟩ := ran_get_iff.1 h
    rfl

lemma plain_modify {f : Shell κ → Shell κ} (hf : ∀ s, Alike s (f s)) :
    Plain (modify f : Dispatching κ ρ Unit) where
  alike h _ := by
    obtain ⟨-, rfl⟩ := ran_modify_iff.1 h
    exact hf _
  no_invocation h := by
    obtain ⟨rfl, -⟩ := ran_modify_iff.1 h
    rfl

/-- Whatever is asked but the call of a command. -/
lemma plain_ask {q : Request κ ρ} (hq : ∀ c args input, q ≠ .invoke c args input) :
    Plain (ask q) where
  alike h hlog := by
    rw [ran_ask_iff] at h
    exact hlog _ (h ▸ List.mem_singleton.2 rfl)
  no_invocation h := by
    rw [ran_ask_iff] at h
    subst h
    cases q with
    | invoke c args input => exact absurd rfl (hq c args input)
    | _ => rfl

lemma plain_bind {t : Dispatching κ ρ α} {f : α → Dispatching κ ρ β} (ht : Plain t)
    (hf : ∀ a, Plain (f a)) : Plain (t >>= f) where
  alike h hlog := by
    obtain ⟨a, u, before, after, rfl, hbefore, hafter⟩ := ran_bind_iff.1 h
    obtain ⟨hlog, hlog'⟩ := undisturbed_append_iff.1 hlog
    exact (ht.alike hbefore hlog).trans ((hf a).alike hafter hlog')
  no_invocation h := by
    obtain ⟨a, u, before, after, rfl, hbefore, hafter⟩ := ran_bind_iff.1 h
    rw [invocations_append, ht.no_invocation hbefore, (hf a).no_invocation hafter]
    rfl

/-- A task whose every request is answered by a plain part. -/
lemma plain_interpret {ω : Type} {ans : ω → Type} {answer : (o : ω) → Dispatching κ ρ (ans o)}
    (h : ∀ o, Plain (answer o)) (t : Task ω ans α) : Plain (t.interpret answer) := by
  induction t with
  | done a => exact plain_pure a
  | ask o next ih => exact plain_bind (h o) ih

/-- Looking something up. -/
lemma plain_look (l : Catalog.Lookup α) : Plain (look l : Dispatching κ ρ _) := by
  refine plain_interpret (fun q => ?_) _
  cases q with
  | get url => exact plain_ask (by simp)
  | post url body => exact plain_ask (by simp)
  | cached name => exact plain_bind plain_get fun _ => plain_pure _
  | keep name e => exact plain_modify fun _ => ⟨rfl, rfl⟩

/-- Whatever goes on in the context of the shell. -/
lemma plain_inContext (t : Sitting α) : Plain (inContext t : Dispatching κ ρ α) := by
  have hview : Plain (do return (← get).context : Dispatching κ ρ Context) :=
    plain_bind plain_get fun _ => plain_pure _
  have hput (c : Context) : Plain (modify fun s => { s with context := c } :
      Dispatching κ ρ Unit) := plain_modify fun _ => ⟨rfl, rfl⟩
  have hserve (q : Session.Request) : Plain (serveSession q : Dispatching κ ρ _) := by
    cases q <;> exact plain_ask (by simp)
  refine plain_bind hview fun c => plain_bind (plain_interpret (fun q => ?_) _) fun r => ?_
  · exact plain_bind (hput _) fun _ => plain_bind (hserve _) fun _ =>
      plain_bind hview fun _ => plain_pure _
  · exact plain_bind (hput _) fun _ => plain_pure _

/-! ## Plain parts that may stop the line -/

lemma plain_unstopped {t : Dispatching κ ρ α} (ht : Plain t) : Plain (unstopped t).run where
  alike h := by
    obtain ⟨a, -, h⟩ := ran_run_unstopped_iff.1 h
    exact ht.alike h
  no_invocation h := by
    obtain ⟨a, -, h⟩ := ran_run_unstopped_iff.1 h
    exact ht.no_invocation h

lemma plain_run_bind {t : Stopping κ ρ α} {f : α → Stopping κ ρ β} (ht : Plain t.run)
    (hf : ∀ a, Plain (f a).run) : Plain (t >>= f).run := by
  refine plain_bind ht fun r => ?_
  cases r with
  | error e => exact plain_pure _
  | ok a => exact hf a

/-- Looking a program up, with what is shown meanwhile. -/
lemma plain_load (name : String) : Plain (load name : Stopping κ ρ CatalogEntry).run := by
  refine plain_run_bind (plain_unstopped (plain_ask (by simp))) fun _ => ?_
  refine plain_run_bind (plain_unstopped (plain_bind plain_get fun _ => plain_look _)) fun found => ?_
  refine plain_run_bind (plain_unstopped (plain_ask (by simp))) fun _ => ?_
  cases found <;> exact plain_pure _

end GuestShell.Shell
