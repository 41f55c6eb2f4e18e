import Tabletop.Session

/-! # Operations on a table

What an operation on a table comes to, whether it has a result or not, and three
ways to speak of all its ends at once: `Ends` says what holds after it, `Ignores` that
it takes no notice of a change to the session, such as messages that nobody has taken
yet (`Blind`), and `Keeps` that it leaves a part of the session as it was.
-/

namespace Tabletop

variable {G : Type} {α β : Type}

namespace Drive

/-- What an operation comes to on a table: a result or an error, and the table it
leaves behind. -/
def on (d : Drive G α) (t : Table G) : Except PlayError α × Table G := d.run.run t

section On

variable {d : Drive G α} {k : α → Drive G β} {t : Table G}

theorem on_bind :
    (d >>= k).on t =
      match d.on t with
      | (.ok a, t') => (k a).on t'
      | (.error e, t') => (.error e, t') := by
  simp only [on, ExceptT.run_bind, StateT.run_bind]
  rcases (d.run.run t : Except PlayError α × Table G) with ⟨_ | a, t'⟩ <;> rfl

/-- Two operations have a result in a row if each has one. -/
theorem on_bind_eq_ok {b : β} {t' : Table G} :
    (d >>= k).on t = (.ok b, t') ↔
      ∃ a t₁, d.on t = (.ok a, t₁) ∧ (k a).on t₁ = (.ok b, t') := by
  rw [on_bind]
  rcases d.on t with ⟨_ | a, t₁⟩
  · simp
  · constructor
    · exact fun h => ⟨a, t₁, rfl, h⟩
    · rintro ⟨_, _, ⟨⟩, h⟩
      exact h

theorem on_eq_of_fst {a : α} (h : (d.on t).1 = .ok a) : d.on t = (.ok a, (d.on t).2) :=
  Prod.ext h rfl

theorem on_pure {a : α} : (pure a : Drive G α).on t = (.ok a, t) := rfl

/-- The result of an operation may be told in other words. -/
theorem on_bind_pure {f : α → β} :
    (d >>= fun a => pure (f a)).on t = ((d.on t).1.map f, (d.on t).2) := by
  rw [on_bind]
  rcases d.on t with ⟨_ | _, _⟩ <;> rfl

/-- An operation whose result is only confirmed had a result. -/
theorem on_of_confirmed {d : Drive G Unit} {b : β}
    (replied : ((do d; return b : Drive G β).on t).1.isOk) :
    d.on t = (.ok (), ((do d; return b : Drive G β).on t).2) := by
  rw [on_bind_pure] at replied ⊢
  rcases ends : d.on t with ⟨_ | _, t'⟩
  · rw [ends] at replied
    cases replied
  · rfl

theorem on_throw {e : PlayError} : (throw e : Drive G α).on t = (.error e, t) := rfl

theorem on_session : (Drive.session : Drive G Session).on t = (.ok t.session, t) := rfl

theorem on_game : (Drive.game : Drive G G).on t = (.ok t.game, t) := rfl

theorem on_get : (get : Drive G (Table G)).on t = (.ok t, t) := rfl

theorem on_change {f : Session → Session} :
    (Drive.change f : Drive G Unit).on t = (.ok (), { t with session := f t.session }) := rfl

theorem on_putGame {g : G} {dice : Dice} :
    (Drive.putGame g dice).on t = (.ok (), ⟨{ t.session with dice }, g⟩) := rfl

theorem on_playing {result : Playing α} : (liftM result : Drive G α).on t = (result, t) := rfl

theorem on_checked {result : Checked α} :
    (liftM result : Drive G α).on t = (Playing.ofChecked result, t) := rfl

end On

/-! ### What holds at the end -/

/-- With a result the operation on the table ends well, and with an error as is fair for
that error. -/
def Ends (d : Drive G α) (t : Table G) (good : α → Table G → Prop)
    (fair : PlayError → Table G → Prop) : Prop :=
  match d.on t with
  | (.ok a, t') => good a t'
  | (.error e, t') => fair e t'

namespace Ends

variable {d : Drive G α} {k : α → Drive G β} {t : Table G} {good : α → Table G → Prop}
  {good' : β → Table G → Prop} {fair : PlayError → Table G → Prop}

theorem imp {better : α → Table G → Prop} {fairer : PlayError → Table G → Prop}
    (h : d.Ends t better fairer) (good_weaker : ∀ a t', better a t' → good a t')
    (fair_weaker : ∀ e t', fairer e t' → fair e t') : d.Ends t good fair := by
  unfold Ends at *
  split at h
  · exact good_weaker _ _ h
  · exact fair_weaker _ _ h

theorem mono {better : α → Table G → Prop} (h : d.Ends t better fair)
    (weaker : ∀ a t', better a t' → good a t') : d.Ends t good fair :=
  h.imp weaker fun _ _ => id

theorem good_of_on (h : d.Ends t good fair) (replied : (d.on t).1.isOk) :
    ∃ a, good a (d.on t).2 := by
  unfold Ends at h
  split at h
  · rename_i a t' ends
    rw [ends]
    exact ⟨a, h⟩
  · rename_i ends
    simp [ends, Except.isOk, Except.toBool] at replied

theorem fair_of_on {e : PlayError} (h : d.Ends t good fair) (fails : (d.on t).1 = .error e) :
    fair e (d.on t).2 := by
  unfold Ends at h
  split at h
  · rename_i ends
    rw [ends] at fails
    cases fails
  · rename_i ends
    rw [ends] at fails ⊢
    cases fails
    exact h

/-- What holds of the table at every end. -/
theorem any_of_on {left : Table G → Prop} (h : d.Ends t good fair)
    (of_good : ∀ a t', good a t' → left t') (of_fair : ∀ e t', fair e t' → left t') :
    left (d.on t).2 := by
  unfold Ends at h
  split at h
  · rename_i ends
    rw [ends]
    exact of_good _ _ h
  · rename_i ends
    rw [ends]
    exact of_fair _ _ h

theorem pure {a : α} (h : good a t) : (Pure.pure a : Drive G α).Ends t good fair := h

theorem throw {e : PlayError} (h : fair e t) :
    (MonadExcept.throw e : Drive G α).Ends t good fair := h

theorem bind (h : d.Ends t (fun a t' => (k a).Ends t' good' fair) fair) :
    (d >>= k).Ends t good' fair := by
  unfold Ends at *
  rw [on_bind]
  split at h <;> simp_all

theorem session {k : Session → Drive G β} (h : (k t.session).Ends t good' fair) :
    (Drive.session >>= k).Ends t good' fair := bind h

theorem game {k : G → Drive G β} (h : (k t.game).Ends t good' fair) :
    (Drive.game >>= k).Ends t good' fair := bind h

theorem get {k : Table G → Drive G β} (h : (k t).Ends t good' fair) :
    ((MonadState.get : Drive G (Table G)) >>= k).Ends t good' fair := bind h

theorem change {f : Session → Session} {good : Unit → Table G → Prop}
    (h : good () { t with session := f t.session }) :
    (Drive.change f : Drive G Unit).Ends t good fair := h

theorem putGame {g : G} {dice : Dice} {good : Unit → Table G → Prop}
    (h : good () ⟨{ t.session with dice }, g⟩) : (Drive.putGame g dice).Ends t good fair := h

theorem playing {result : Playing α} (ok : ∀ a, result = .ok a → good a t)
    (error : ∀ e, result = .error e → fair e t) :
    (liftM result : Drive G α).Ends t good fair := by
  unfold Ends
  rw [on_playing]
  cases result with
  | ok a => exact ok a rfl
  | error e => exact error e rfl

theorem checked {result : Checked α} (ok : ∀ a, result = .ok a → good a t)
    (error : ∀ fault, fair (.fault fault) t) : (liftM result : Drive G α).Ends t good fair := by
  unfold Ends
  rw [on_checked]
  cases result with
  | ok a => exact ok a rfl
  | error fault => exact error fault

theorem playing_of_eq {result : Playing α} {a : α} (h : result = .ok a) (end_good : good a t) :
    (liftM result : Drive G α).Ends t good fair := h ▸ end_good

/-- An operation for each of some items, one after the other. -/
theorem forM {γ : Type} {items : List γ} {f : γ → Drive G Unit} {keeps : Table G → Prop}
    (start : keeps t)
    (each : ∀ item t, keeps t → (f item).Ends t (fun _ t' => keeps t') fair) :
    (items.forM f).Ends t (fun _ t' => keeps t') fair := by
  induction items generalizing t with
  | nil => exact start
  | cons item items ih => exact bind ((each item t start).mono fun _ _ => ih)

end Ends

end Drive

/-- The table with a change to its session. -/
def Table.mapSession (f : Session → Session) (t : Table G) : Table G :=
  { t with session := f t.session }

namespace Drive

/-! ### Taking no notice of a change -/

/-- The operation takes no notice of a change to the session, and keeps it. -/
def Ignores (f : Session → Session) (d : Drive G α) : Prop :=
  ∀ t, d.on (t.mapSession f) = ((d.on t).1, (d.on t).2.mapSession f)

namespace Ignores

variable {f : Session → Session} {d : Drive G α} {k : α → Drive G β}

theorem pure (a : α) : (Pure.pure a : Drive G α).Ignores f := fun _ => rfl

theorem throw (e : PlayError) : (MonadExcept.throw e : Drive G α).Ignores f := fun _ => rfl

/-- Nothing follows an error. -/
theorem throw_bind (e : PlayError) : ((MonadExcept.throw e : Drive G α) >>= k).Ignores f :=
  fun _ => rfl

theorem bind (hd : d.Ignores f) (hk : ∀ a, (k a).Ignores f) : (d >>= k).Ignores f := by
  intro t
  simp only [on_bind, hd t]
  rcases d.on t with ⟨_ | a, t'⟩
  · rfl
  · exact hk a t'

/-- What is read of a session does not depend on the change. -/
theorem session {k : Session → Drive G β} (same : ∀ s, k (f s) = k s)
    (hk : ∀ s, (k s).Ignores f) : (Drive.session >>= k).Ignores f := by
  intro t
  simp only [on_bind, on_session]
  rw [show (t.mapSession f).session = f t.session from rfl, same]
  exact hk t.session t

theorem game {k : G → Drive G β} (hk : ∀ g, (k g).Ignores f) : (Drive.game >>= k).Ignores f :=
  fun t => hk t.game t

theorem get {k : Table G → Drive G β} (same : ∀ t, k (t.mapSession f) = k t)
    (hk : ∀ t, (k t).Ignores f) : ((MonadState.get : Drive G (Table G)) >>= k).Ignores f := by
  intro t
  simp only [on_bind, on_get, same]
  exact hk t t

theorem change {c : Session → Session} (commutes : ∀ s, c (f s) = f (c s)) :
    (Drive.change c : Drive G Unit).Ignores f := by
  intro t
  simp only [on_change, Table.mapSession, commutes]

theorem putGame (g : G) (dice : Dice)
    (commutes : ∀ s : Session, { f s with dice } = f { s with dice }) :
    (Drive.putGame g dice).Ignores f := by
  intro t
  simp only [on_putGame, Table.mapSession, commutes]

theorem playing (result : Playing α) : (liftM result : Drive G α).Ignores f := fun _ => rfl

theorem checked (result : Checked α) : (liftM result : Drive G α).Ignores f := fun _ => rfl

theorem forM {γ : Type} {items : List γ} {each : γ → Drive G Unit}
    (h : ∀ item, (each item).Ignores f) : (items.forM each).Ignores f := by
  induction items with
  | nil => exact pure ()
  | cons item items ih => exact bind (h item) fun _ => ih

end Ignores

/-- The operation leaves a part of the session as it was, with a result or an error. -/
def Keeps {γ : Type} (part : Session → γ) (d : Drive G α) : Prop :=
  ∀ t, part (d.on t).2.session = part t.session

/-! ### Taking no notice of messages -/

end Drive

/-- The session with messages that were announced before. -/
def Session.withOld (old : List String) (s : Session) : Session :=
  { s with messages := old ++ s.messages }

/-- The table with messages that were announced before. -/
def Table.withOld (old : List String) (t : Table G) : Table G :=
  { t with session := t.session.withOld old }

namespace Drive

/-- The operation takes no notice of messages that were announced before, and keeps
them. -/
def Blind (d : Drive G α) : Prop :=
  ∀ old t, d.on (t.withOld old) = ((d.on t).1, (d.on t).2.withOld old)

theorem Blind.of_ignores {d : Drive G α} (h : ∀ old, d.Ignores (Session.withOld old)) : d.Blind :=
  h

/-- The operation takes no notice of messages that were announced before, and either
keeps them or forgets them. -/
def Forgetful (d : Drive G α) : Prop :=
  ∀ old t, d.on (t.withOld old) = ((d.on t).1, (d.on t).2.withOld old) ∨
    d.on (t.withOld old) = d.on t

namespace Forgetful

variable {d : Drive G α}

theorem of_blind (h : d.Blind) : d.Forgetful := fun old t => .inl (h old t)

theorem of_ignores (h : ∀ old, d.Ignores (Session.withOld old)) : d.Forgetful :=
  of_blind (.of_ignores h)

theorem bind_pure (h : d.Forgetful) (f : α → β) : (d >>= fun a => pure (f a)).Forgetful := by
  intro old t
  simp only [on_bind]
  rcases h old t with same | same <;> rw [same]
  · left
    rcases d.on t with ⟨_ | a, t'⟩ <;> rfl
  · exact .inr rfl

end Forgetful

end Drive

end Tabletop
