import Spreadsheet.Proofs.Store.Attempt

-- Attempts whatever their outcome: what holds when one has ended, and two of them side by side.

set_option autoImplicit false

namespace Spreadsheet

section Ends

variable {σ τ α β : Type}

-- What holds once the attempt has ended from the state `s`, be it with a result or a failure.
def Attempt.Ends (act : Attempt σ α) (s : σ) (post : Except StoreError α → σ → Prop) : Prop :=
  post (act.run.run s).1 (act.run.run s).2

theorem ends_mono (act : Attempt σ α) (s : σ) (post weaker : Except StoreError α → σ → Prop)
    (ends : act.Ends s post) (weaken : ∀ result t, post result t → weaker result t) :
    act.Ends s weaker := weaken _ _ ends

theorem ends_pure (s : σ) (a : α) (post : Except StoreError α → σ → Prop) (holds : post (.ok a) s) :
    Attempt.Ends (pure a) s post := holds

theorem ends_bind (act : Attempt σ α) (next : α → Attempt σ β) (s : σ)
    (middle : Except StoreError α → σ → Prop) (post : Except StoreError β → σ → Prop)
    (first : act.Ends s middle)
    (goesOn : ∀ a t, middle (.ok a) t → (next a).Ends t post)
    (stops : ∀ error t, middle (.error error) t → post (.error error) t) :
    (act >>= next).Ends s post := by
  unfold Attempt.Ends at *
  rw [ExceptT.run_bind, StateT.run_bind]
  cases ran : act.run.run s with
  | mk result t =>
    rw [ran] at first
    cases result with
    | ok a => exact goesOn a t first
    | error error => exact stops error t first

theorem ends_bind_returned (act : Attempt σ α) (next : α → Attempt σ β) (s t : σ) (a : α)
    (post : Except StoreError β → σ → Prop) (returned : act.Returns s a t)
    (later : (next a).Ends t post) : (act >>= next).Ends s post := by
  unfold Attempt.Ends at *
  rw [ExceptT.run_bind, StateT.run_bind, returned]
  exact later

theorem ends_get (s : σ) (next : σ → Attempt σ β) (post : Except StoreError β → σ → Prop)
    (ends : (next s).Ends s post) : Attempt.Ends (get >>= next) s post := ends

theorem ends_map (act : Attempt σ α) (f : α → β) (s : σ) (post : Except StoreError β → σ → Prop)
    (ends : act.Ends s fun result => post (result.map f)) : Attempt.Ends (f <$> act) s post := by
  rw [map_eq_pure_bind]
  exact ends_bind act _ s _ _ ends (fun a t holds => ends_pure t (f a) _ holds)
    fun _ _ holds => holds

theorem ends_discard (act : Attempt σ α) (s : σ) (post : σ → Prop)
    (ends : act.Ends s fun _ => post) : Attempt.Ends (discard act) s fun _ => post :=
  ends_map act _ s (fun _ => post) ends

theorem ends_within (get : τ → σ) (set : σ → τ → τ) (act : Attempt σ α) (t : τ)
    (post : Except StoreError α → τ → Prop)
    (inner : act.Ends (get t) fun result s => post result (set s t)) :
    (act.within get set).Ends t post := inner

theorem ends_and (act : Attempt σ α) (s : σ) (first second : Except StoreError α → σ → Prop)
    (one : act.Ends s first) (other : act.Ends s second) :
    act.Ends s fun result t => first result t ∧ second result t := ⟨one, other⟩

-- From the state `s` the attempt fails with `error` and leaves `t`.
def Attempt.Fails (act : Attempt σ α) (s : σ) (error : StoreError) (t : σ) : Prop :=
  act.run.run s = (.error error, t)

theorem failed_of_ends (act : Attempt σ α) (s : σ) (post : σ → Prop)
    (ended : act.Ends s fun result t => result.isOk = false ∧ post t) :
    ∃ error t, act.Fails s error t ∧ post t := by
  obtain ⟨failed, holds⟩ := ended
  cases outcome : (act.run.run s).1 with
  | ok a => simp [outcome, Except.isOk, Except.toBool] at failed
  | error error => exact ⟨error, (act.run.run s).2, Prod.ext outcome rfl, holds⟩

theorem ends_of_fails (act : Attempt σ α) (s t : σ) (error : StoreError)
    (post : Except StoreError α → σ → Prop) (failed : act.Fails s error t) (ends : act.Ends s post) :
    post (.error error) t := by
  unfold Attempt.Ends at ends
  rw [failed] at ends
  exact ends

theorem returns_unique (act : Attempt σ α) (s t u : σ) (a b : α) (first : act.Returns s a t)
    (second : act.Returns s b u) : a = b ∧ t = u := by
  have same : (Except.ok a, t) = (Except.ok b, u) := first.symm.trans second
  exact ⟨Except.ok.inj (congrArg Prod.fst same), congrArg Prod.snd same⟩

theorem returns_split (act : Attempt σ α) (next : α → Attempt σ β) (s u : σ) (b : β)
    (returned : (act >>= next).Returns s b u) :
    ∃ a t, act.Returns s a t ∧ (next a).Returns t b u := by
  unfold Attempt.Returns at returned
  rw [ExceptT.run_bind, StateT.run_bind] at returned
  cases ran : act.run.run s with
  | mk result t =>
    rw [ran] at returned
    cases result with
    | ok a => exact ⟨a, t, ran, returned⟩
    | error error => cases returned

theorem returns_split_get (s u : σ) (next : σ → Attempt σ β) (b : β)
    (returned : Attempt.Returns (get >>= next) s b u) : (next s).Returns s b u := returned

theorem returns_split_discard (act : Attempt σ α) (s u : σ)
    (returned : Attempt.Returns (discard act) s () u) : ∃ a, act.Returns s a u := by
  have bound : Attempt.Returns (act >>= fun _ => pure ()) s () u := by
    rw [← map_eq_pure_bind]
    exact returned
  obtain ⟨a, t, first, done⟩ := returns_split act _ s u () bound
  obtain ⟨_, rfl⟩ := returns_unique _ t t u () () (returns_pure t ()) done
  exact ⟨a, first⟩

theorem returns_split_within (get : τ → σ) (set : σ → τ → τ) (act : Attempt σ α) (t u : τ) (a : α)
    (returned : (act.within get set).Returns t a u) :
    ∃ s, act.Returns (get t) a s ∧ u = set s t := by
  have answered : (act.run.run (get t)).1 = .ok a := congrArg Prod.fst returned
  have left : set (act.run.run (get t)).2 t = u := congrArg Prod.snd returned
  exact ⟨_, Prod.ext answered rfl, left.symm⟩

theorem returns_of_ends (act : Attempt σ α) (s : σ) (post : α → σ → Prop)
    (ends : act.Ends s fun result t =>
      match result with
      | .ok a => post a t
      | .error _ => False) : ∃ a t, act.Returns s a t ∧ post a t := by
  unfold Attempt.Ends at ends
  cases ran : act.run.run s with
  | mk result t =>
    rw [ran] at ends
    cases result with
    | ok a => exact ⟨a, t, ran, ends⟩
    | error error => exact ends.elim

theorem ends_of_returns (act : Attempt σ α) (s t : σ) (a : α) (post : Except StoreError α → σ → Prop)
    (returned : act.Returns s a t) (ends : act.Ends s post) : post (.ok a) t := by
  unfold Attempt.Ends at ends
  rw [returned] at ends
  exact ends

end Ends

section Yields

variable {σ α β : Type}

-- What holds of every result that the attempt gives back.
def Attempt.Yields (act : Attempt σ α) (post : α → Prop) : Prop :=
  ∀ s a t, act.Returns s a t → post a

theorem yields_pure (a : α) (post : α → Prop) (holds : post a) :
    Attempt.Yields (σ := σ) (pure a) post := by
  intro s b t returned
  obtain ⟨rfl, _⟩ := returns_unique _ s t s b a returned (returns_pure s a)
  exact holds

theorem yields_bind (act : Attempt σ α) (next : α → Attempt σ β) (middle : α → Prop)
    (post : β → Prop) (first : act.Yields middle) (later : ∀ a, middle a → (next a).Yields post) :
    (act >>= next).Yields post := by
  intro s b u returned
  obtain ⟨a, t, one, other⟩ := returns_split act next s u b returned
  exact later a (first s a t one) t b u other

theorem yields_any (act : Attempt σ α) : act.Yields fun _ => True := fun _ _ _ _ => trivial

end Yields

section Keeps

variable {σ α β : Type} (invariant : σ → Prop)

def Attempt.Keeps (act : Attempt σ α) : Prop :=
  ∀ s, invariant s → act.Ends s fun _ => invariant

theorem keeps_pure (a : α) : Attempt.Keeps invariant (pure a) := fun _ holds => holds

theorem keeps_bind (act : Attempt σ α) (next : α → Attempt σ β) (first : act.Keeps invariant)
    (later : ∀ a, (next a).Keeps invariant) : (act >>= next).Keeps invariant := by
  intro s holds
  exact ends_bind act next s (fun _ => invariant) _ (first s holds) (fun a t kept => later a t kept)
    fun _ _ kept => kept

theorem keeps_get (next : σ → Attempt σ α) (later : ∀ s, (next s).Keeps invariant) :
    Attempt.Keeps invariant (get >>= next) := fun s holds => later s s holds

theorem keeps_discard (act : Attempt σ α) (keeps : act.Keeps invariant) :
    Attempt.Keeps invariant (discard act) :=
  fun s holds => ends_discard act s invariant (keeps s holds)

end Keeps

section Tied

variable {σ τ α β : Type}

-- Two attempts, each from its own state: they end alike in tied states, or the first one, if it is
-- `frail`, fails by itself.
def Attempt.Abreast (tie : σ → τ → Prop) (frail : Prop) (act : Attempt σ α) (s : σ)
    (other : Attempt τ α) (t : τ) : Prop :=
  (act.run.run s).1 = (other.run.run t).1 ∧ tie (act.run.run s).2 (other.run.run t).2 ∨
    frail ∧ ∃ error, (act.run.run s).1 = .error error

def Attempt.Tied (tie : σ → τ → Prop) (frail : Prop) (act : Attempt σ α)
    (other : Attempt τ α) : Prop :=
  ∀ s t, tie s t → act.Abreast tie frail s other t

-- An attempt that keeps an invariant is tied to itself.
theorem tied_of_keeps (invariant : σ → Prop) (frail : Prop) (act : Attempt σ α)
    (keeps : act.Keeps invariant) : act.Tied (fun s t => s = t ∧ invariant s) frail act := by
  rintro s _ ⟨rfl, holds⟩
  exact .inl ⟨rfl, rfl, keeps s holds⟩

variable (tie : σ → τ → Prop) (frail : Prop)

theorem abreast_alike (act : Attempt σ α) (other : Attempt τ α) (s : σ) (t : τ)
    (abreast : act.Abreast tie False s other t) :
    (act.run.run s).1 = (other.run.run t).1 ∧ tie (act.run.run s).2 (other.run.run t).2 := by
  cases abreast with
  | inl alike => exact alike
  | inr failed => exact failed.1.elim

theorem keeps_of_tied (invariant : σ → Prop) (act : Attempt σ α)
    (tied : act.Tied (fun s t => s = t ∧ invariant s) False act) : act.Keeps invariant := by
  intro s holds
  exact (abreast_alike _ act act s s (tied s s ⟨rfl, holds⟩)).2.2

theorem abreast_returns (act : Attempt σ α) (other : Attempt τ α) (s u : σ) (t : τ) (a : α)
    (abreast : act.Abreast tie frail s other t) (returned : act.Returns s a u) :
    ∃ v, other.Returns t a v ∧ tie u v := by
  unfold Attempt.Abreast at abreast
  rw [returned] at abreast
  cases abreast with
  | inl alike => exact ⟨_, Prod.ext alike.1.symm rfl, alike.2⟩
  | inr failed =>
    obtain ⟨_, error, same⟩ := failed
    cases same

theorem returns_abreast (act : Attempt σ α) (other : Attempt τ α) (s : σ) (t v : τ) (a : α)
    (abreast : act.Abreast tie False s other t) (returned : other.Returns t a v) :
    ∃ u, act.Returns s a u ∧ tie u v := by
  have alike := abreast_alike tie act other s t abreast
  rw [returned] at alike
  exact ⟨_, Prod.ext alike.1 rfl, alike.2⟩

theorem tied_pure (a : α) : Attempt.Tied tie frail (pure a) (pure a) :=
  fun _ _ tied => .inl ⟨rfl, tied⟩

theorem abreast_bind (act : Attempt σ α) (other : Attempt τ α) (next : α → Attempt σ β)
    (after : α → Attempt τ β) (s : σ) (t : τ) (first : act.Abreast tie frail s other t)
    (later : ∀ a, (next a).Tied tie frail (after a)) :
    (act >>= next).Abreast tie frail s (other >>= after) t := by
  unfold Attempt.Abreast at first ⊢
  simp only [ExceptT.run_bind, StateT.run_bind]
  cases ran : act.run.run s with
  | mk result u =>
    cases went : other.run.run t with
    | mk reply v =>
      rw [ran, went] at first
      cases first with
      | inl alike =>
        obtain ⟨same, held⟩ := alike
        obtain rfl : result = reply := same
        cases result with
        | ok a => exact later a u v held
        | error error => exact .inl ⟨rfl, held⟩
      | inr failed =>
        obtain ⟨weak, error, same⟩ := failed
        obtain rfl : result = .error error := same
        exact .inr ⟨weak, error, rfl⟩

theorem tied_bind (act : Attempt σ α) (other : Attempt τ α) (next : α → Attempt σ β)
    (after : α → Attempt τ β) (first : act.Tied tie frail other)
    (later : ∀ a, (next a).Tied tie frail (after a)) :
    (act >>= next).Tied tie frail (other >>= after) :=
  fun s t tied => abreast_bind tie frail act other next after s t (first s t tied) later

theorem tied_get (next : σ → Attempt σ α) (after : τ → Attempt τ α)
    (later : ∀ s t, tie s t → (next s).Abreast tie frail s (after t) t) :
    Attempt.Tied tie frail (get >>= next) (get >>= after) :=
  later

theorem tied_modify (f : σ → σ) (g : τ → τ) (kept : ∀ s t, tie s t → tie (f s) (g t)) :
    Attempt.Tied tie frail (modify f) (modify g) :=
  fun s t tied => .inl ⟨rfl, kept s t tied⟩

theorem tied_map_each (act : α → Attempt σ β) (other : α → Attempt τ β) (list : List α)
    (each : ∀ x ∈ list, (act x).Tied tie frail (other x)) :
    (list.mapM act).Tied tie frail (list.mapM other) := by
  induction list with
  | nil => exact tied_pure tie frail []
  | cons x rest ih =>
    rw [List.mapM_cons, List.mapM_cons]
    apply tied_bind tie frail _ _ _ _ (each x List.mem_cons_self)
    intro y
    apply tied_bind tie frail _ _ _ _ (ih fun z member => each z (List.mem_cons_of_mem x member))
    intro ys
    exact tied_pure tie frail (y :: ys)

theorem Formula.Reading.run_tied (asked : Formula.Query → Prop)
    (act : (q : Formula.Query) → Attempt σ q.Answer)
    (other : (q : Formula.Query) → Attempt τ q.Answer) (t : Formula.Reading α)
    (along : t.Along (fun _ _ => True) asked)
    (each : ∀ q, asked q → (act q).Tied tie frail (other q)) :
    Attempt.Tied tie frail (t.run act) (t.run other) := by
  induction t with
  | done a => exact tied_pure tie frail a
  | ask q next ih =>
    apply tied_bind tie frail _ _ _ _ (each q along.1)
    intro answer
    exact ih answer (along.2 answer trivial)

-- The calls of two stores that read cells or sheets are tied.
structure Reads [CellStore σ] [CellStore τ] : Prop where
  cell : ∀ k, Attempt.Tied tie frail (CellStore.cell k) (CellStore.cell k)
  range : ∀ r, Attempt.Tied tie frail (CellStore.range r) (CellStore.range r)
  sheet : ∀ id, Attempt.Tied tie frail (CellStore.sheet id) (CellStore.sheet id)
  sheetNamed : ∀ workbook name, Attempt.Tied tie frail (CellStore.sheetNamed workbook name)
    (CellStore.sheetNamed workbook name)

end Tied

end Spreadsheet
