/-
  OpenApi.Proofs.Strictness.Follows — steps on a document and on the trimmed one.

  A step that succeeds on a document only adds marks, and makes changes that belong to the document. If none
  of the keys that it marks is trimmed away, the step on the trimmed document succeeds as well, from the same
  marks and spec to the same marks and spec. `Follows` says both of a pair of steps, and has a rule for each way
  to put steps together. The decisions that a step takes without marking anything are made good by what is
  marked later: a rule may use what the rest of the step shows about the keys that stay (`congr_right`).

  A trimmed document is in no `Pairing` with the whole one. There a key that decides what a mapping is stands on both
  sides or on neither; here the enum beside the properties of a named schema is trimmed away, since nothing looked at
  it.
-/
import OpenApi.Proofs.Build.Readings
import OpenApi.Proofs.Strictness.Trim

namespace OpenApi

/-! ## §1. What one document does to a session. -/

/-- The change belongs to the document: it adds a model of its own, or a reference that is read in it or names
a model of its own, or neither model nor reference. -/
def Change.IsFrom (file : String) : Change → Prop
  | .model f _ => f = file
  | .reference r => (∃ raw, SchemaRef.parse raw file = .ok r) ∨ ∃ name, r = .toModel file name
  | .describe _ _ => True
  | .operation _ => True
  | .securityScheme _ => True

/-- The second session is the first one after some reading of the document: marks and changes of the document
were added. -/
structure Session.Leads (file : String) (session after : Session) : Prop where
  marks : session.usage.Within after.usage
  changes : ∃ changes, session.spec.applyAll changes = .ok after.spec ∧ ∀ c ∈ changes, c.IsFrom file

namespace Session.Leads

variable {file : String} {session middle after : Session}

theorem of_marks (h : session.usage.Within after.usage) (hspec : after.spec = session.spec) :
    session.Leads file after :=
  ⟨h, [], by rw [hspec]; rfl, fun _ hc => absurd hc List.not_mem_nil⟩

theorem refl (session : Session) : session.Leads file session := of_marks (.refl _) rfl

theorem trans (h : session.Leads file middle) (h' : middle.Leads file after) :
    session.Leads file after := by
  obtain ⟨changes, happly, hfrom⟩ := h.changes
  obtain ⟨more, happly', hfrom'⟩ := h'.changes
  exact ⟨h.marks.trans h'.marks, changes ++ more, Spec.applyAll_trans happly happly',
    List.forall_mem_append.2 ⟨hfrom, hfrom'⟩⟩

end Session.Leads

namespace Trim

variable {α β γ δ : Type} {T : Trim}

/-! ## §2. One step after another. -/

/-- Where the first step succeeds, it leads on within its document, and its result has a counterpart. If all
that is marked then is marked in the end, `F` holds, and the second step does the same to marks and spec and
gives a counterpart. -/
def Follows (T : Trim) (x : Building α) (x' : Building β) (R : α → β → Prop) (F : Prop) : Prop :=
  ∀ session a after, x.run.run session = (.ok a, after) →
    session.Leads T.file after ∧ (∃ b, R a b) ∧
      (after.usage.Within T.usage → F ∧ ∀ events, ∃ b events',
        x'.run.run { session with events } = (.ok b, { after with events := events' }) ∧ R a b)

namespace Follows

variable {x : Building α} {x' : Building β} {R : α → β → Prop} {S : γ → δ → Prop} {F G : Prop}

theorem mono {R' : α → β → Prop} (h : T.Follows x x' R F) (hR : ∀ a b, R a b → R' a b)
    (hF : F → G) : T.Follows x x' R' G := by
  intro session a after hrun
  obtain ⟨hleads, ⟨b, hab⟩, hagain⟩ := h session a after hrun
  refine ⟨hleads, ⟨b, hR a b hab⟩, fun husage => ⟨hF (hagain husage).1, fun events => ?_⟩⟩
  obtain ⟨b, events', hrun', hab⟩ := (hagain husage).2 events
  exact ⟨b, events', hrun', hR a b hab⟩

theorem showing (h : T.Follows x x' R F) (hF : F → G) : T.Follows x x' R G := h.mono (fun _ _ hab => hab) hF

/-- What is shown by the end of the step may be used to see which step it is that follows. -/
theorem congr_right {y : Building β} (h : T.Follows x y R (F ∧ G)) (hG : G → x' = y) :
    T.Follows x x' R F := by
  intro session a after hrun
  obtain ⟨hleads, hb, hagain⟩ := h session a after hrun
  refine ⟨hleads, hb, fun husage => ?_⟩
  obtain ⟨⟨hf, hg⟩, hagain⟩ := hagain husage
  rw [hG hg]
  exact ⟨hf, hagain⟩

theorem pure {a : α} {b : β} (h : R a b) (hF : F) : T.Follows (pure a) (pure b) R F := by
  intro session a' after hrun
  obtain ⟨rfl, rfl⟩ := Building.run_pure_ok hrun
  exact ⟨.refl _, ⟨b, h⟩, fun _ => ⟨hF, fun events => ⟨b, events, rfl, h⟩⟩⟩

theorem throw {e : Error} : T.Follows (throw e : Building α) x' R F := by
  intro session a after hrun
  have hpair : ((.error e : Except Error α), session) = (.ok a, after) := hrun
  exact absurd (Prod.mk.inj hpair).1 (by simp)

/-- What both of two steps show is shown by the two of them. -/
theorem bind_both {g : α → Building γ} {g' : β → Building δ} (hx : T.Follows x x' R F)
    (hg : ∀ a b, R a b → T.Follows (g a) (g' b) S G) : T.Follows (x >>= g) (x' >>= g') S (F ∧ G) := by
  intro session c after hrun
  obtain ⟨a, middle, hfirst, hsecond⟩ := Building.run_bind_ok hrun
  obtain ⟨hleads, ⟨b, hab⟩, hagain⟩ := hx session a middle hfirst
  obtain ⟨hleads', hcounterpart, hshows⟩ := hg a b hab middle c after hsecond
  refine ⟨hleads.trans hleads', hcounterpart, fun husage => ?_⟩
  -- marks are only added, so those of the first step are among the last
  obtain ⟨hf, hagain⟩ := hagain (hleads'.marks.trans husage)
  refine ⟨⟨hf, (hshows husage).1⟩, fun events => ?_⟩
  obtain ⟨b, events', hrun', hab⟩ := hagain events
  obtain ⟨-, -, hagain'⟩ := hg a b hab middle c after hsecond
  obtain ⟨d, events'', hrun'', hcd⟩ := (hagain' husage).2 events'
  refine ⟨d, events'', ?_, hcd⟩
  rw [Building.run_bind hrun']
  exact hrun''

/-- One step after another, where what the second one shows counts. -/
theorem bind {g : α → Building γ} {g' : β → Building δ} (hx : T.Follows x x' R F)
    (hg : ∀ a b, R a b → T.Follows (g a) (g' b) S G) : T.Follows (x >>= g) (x' >>= g') S G :=
  (bind_both hx hg).showing And.right

/-- One step after another, where what the first one shows counts. -/
theorem bind_first {g : α → Building γ} {g' : β → Building δ} (hx : T.Follows x x' R F)
    (hg : ∀ a b, R a b → T.Follows (g a) (g' b) S True) : T.Follows (x >>= g) (x' >>= g') S F :=
  (bind_both hx hg).showing And.left

theorem map {f : α → γ} {f' : β → δ} (h : T.Follows x x' R F) (hf : ∀ a b, R a b → S (f a) (f' b)) :
    T.Follows (f <$> x) (f' <$> x') S F := by
  rw [map_eq_pure_bind, map_eq_pure_bind]
  exact h.bind_first fun a b hab => pure (hf a b hab) trivial

/-! ## §3. Single steps. -/

theorem lift {r : Except Error α} {r' : Except Error β} (h : ∀ a, r = .ok a → ∃ b, r' = .ok b ∧ R a b) :
    T.Follows (liftM r) (liftM r') R True := by
  intro session a after hrun
  obtain ⟨hr, rfl⟩ := Building.run_lift_ok hrun
  obtain ⟨b, hr', hab⟩ := h a hr
  refine ⟨.refl _, ⟨b, hab⟩, fun _ => ⟨trivial, fun events => ⟨b, events, ?_, hab⟩⟩⟩
  rw [hr']
  rfl

theorem report {e e' : Event} : T.Follows (Building.report e) (Building.report e') (fun _ _ => True) True := by
  intro session u after hrun
  have hpair : ((.ok () : Except Error Unit), { session with events := session.events ++ [e] }) =
      (.ok u, after) := hrun
  obtain ⟨-, rfl⟩ := Prod.mk.inj hpair
  exact ⟨.of_marks (.refl _) rfl, ⟨(), trivial⟩, fun _ =>
    ⟨trivial, fun events => ⟨(), events ++ [e'], rfl, trivial⟩⟩⟩

theorem spec : T.Follows Building.spec Building.spec Eq True := by
  intro session s after hrun
  obtain ⟨rfl, rfl⟩ := Building.run_spec_ok hrun
  exact ⟨.refl _, ⟨_, rfl⟩, fun _ => ⟨trivial, fun events => ⟨_, events, rfl, rfl⟩⟩⟩

/-- An update that makes a change of the document. -/
theorem update {f : Spec → Except Error Spec}
    (h : ∀ s t, f s = .ok t → ∃ c, s.apply c = .ok t ∧ c.IsFrom T.file) :
    T.Follows (Building.update f) (Building.update f) (fun _ _ => True) True := by
  intro session u after hrun
  cases hf : f session.spec with
  | error e =>
    simp only [Building.update, ExceptT.run, ExceptT.mk, StateT.run, hf] at hrun
    exact absurd (Prod.mk.inj hrun).1 (by simp)
  | ok t =>
    simp only [Building.update, ExceptT.run, ExceptT.mk, StateT.run, hf] at hrun
    obtain ⟨-, rfl⟩ := Prod.mk.inj hrun
    obtain ⟨c, happly, hfrom⟩ := h _ _ hf
    refine ⟨⟨.refl _, [c], ?_, by simpa using hfrom⟩, ⟨(), trivial⟩, fun _ => ⟨trivial, fun events => ?_⟩⟩
    · rw [Spec.applyAll_cons, happly]
      rfl
    · refine ⟨(), events, ?_, trivial⟩
      simp only [Building.update, ExceptT.run, ExceptT.mk, StateT.run, hf]

/-- A reference that is recorded while its document is read. -/
theorem addReference {r : SchemaRef} (h : (Change.reference r).IsFrom T.file) :
    T.Follows (Building.addReference r) (Building.addReference r) (fun _ _ => True) True := by
  have hupdate : T.Follows (Building.update fun spec => .ok (spec.addReference r))
      (Building.update fun spec => .ok (spec.addReference r)) (fun _ _ => True) True :=
    update fun s t hf => ⟨.reference r, hf, h⟩
  unfold Building.addReference
  refine spec.bind ?_
  rintro s _ rfl
  split
  next => exact hupdate
  next => exact report.bind fun _ _ _ => hupdate

theorem optionally {read : α → Building γ} {read' : β → Building δ} {default : γ} {default' : δ}
    {o : Option α} {o' : Option β} (ho : Option.Rel R o o')
    (hread : ∀ a b, R a b → T.Follows (read a) (read' b) S F) (hdefault : S default default') (hF : F) :
    T.Follows (Building.optionally read default o) (Building.optionally read' default' o') S F := by
  cases ho with
  | none => exact pure hdefault hF
  | some hab => exact hread _ _ hab

/-! ## §4. Lists. -/

theorem mapM {Q : α → β → Prop} {f : α → Building γ} {f' : β → Building δ}
    (h : ∀ a b, Q a b → T.Follows (f a) (f' b) S True) {xs : List α} {ys : List β}
    (hxs : List.Forall₂ Q xs ys) : T.Follows (xs.mapM f) (ys.mapM f') (List.Forall₂ S) True := by
  induction hxs with
  | nil => exact pure .nil trivial
  | cons hab _ ih =>
    rw [List.mapM_cons, List.mapM_cons]
    refine (h _ _ hab).bind fun c d hcd => ih.bind fun cs ds hcds => pure (.cons hcd hcds) trivial

/-- Where the results are the same, so are the lists of them. -/
theorem mapM_eq {Q : α → β → Prop} {f : α → Building γ} {f' : β → Building γ}
    (h : ∀ a b, Q a b → T.Follows (f a) (f' b) Eq True) {xs : List α} {ys : List β}
    (hxs : List.Forall₂ Q xs ys) : T.Follows (xs.mapM f) (ys.mapM f') Eq True :=
  (mapM h hxs).mono (fun _ _ hcds => List.forall₂_eq_eq_eq ▸ hcds) id

/-- Steps over all elements are followed by steps over those that stay, if each step shows that its element
does. -/
theorem mapM_kept {f : α → Building γ} {f' : α → Building δ} {keep : α → Bool} {xs : List α}
    (h : ∀ a ∈ xs, T.Follows (f a) (f' a) S (keep a = true)) :
    T.Follows (xs.mapM f) ((xs.filter keep).mapM f') (List.Forall₂ S) True := by
  have hall : T.Follows (xs.mapM f) (xs.mapM f') (List.Forall₂ S)
      (True ∧ ∀ a ∈ xs, keep a = true) := by
    induction xs with
    | nil => exact pure .nil ⟨trivial, fun _ ha => absurd ha List.not_mem_nil⟩
    | cons a xs ih =>
      rw [List.mapM_cons, List.mapM_cons]
      have hrest := ih fun b hb => h b (List.mem_cons_of_mem _ hb)
      refine Follows.showing (bind_both (h a List.mem_cons_self) fun c d hcd =>
        hrest.bind_first fun cs ds hcds => pure (.cons hcd hcds) trivial) ?_
      exact fun hkeeps => ⟨trivial, List.forall_mem_cons.2 ⟨hkeeps.1, hkeeps.2.2⟩⟩
  exact hall.congr_right fun hkeeps => by rw [List.filter_eq_self.2 hkeeps]

theorem forM {Q : α → β → Prop} {f : α → Building Unit} {f' : β → Building Unit}
    (h : ∀ a b, Q a b → T.Follows (f a) (f' b) (fun _ _ => True) True) {xs : List α} {ys : List β}
    (hxs : List.Forall₂ Q xs ys) : T.Follows (xs.forM f) (ys.forM f') (fun _ _ => True) True := by
  induction hxs with
  | nil => exact pure trivial trivial
  | cons hab _ ih => exact (h _ _ hab).bind fun _ _ _ => ih

theorem forM_kept {f f' : α → Building Unit} {keep : α → Bool} {xs : List α}
    (h : ∀ a ∈ xs, T.Follows (f a) (f' a) (fun _ _ => True) (keep a = true)) :
    T.Follows (xs.forM f) ((xs.filter keep).forM f') (fun _ _ => True) True := by
  have hall : T.Follows (xs.forM f) (xs.forM f') (fun _ _ => True) (True ∧ ∀ a ∈ xs, keep a = true) := by
    induction xs with
    | nil => exact pure trivial ⟨trivial, fun _ ha => absurd ha List.not_mem_nil⟩
    | cons a xs ih =>
      have hrest := ih fun b hb => h b (List.mem_cons_of_mem _ hb)
      refine Follows.showing (bind_both (h a List.mem_cons_self) fun _ _ _ => hrest) ?_
      exact fun hkeeps => ⟨trivial, List.forall_mem_cons.2 ⟨hkeeps.1, hkeeps.2.2⟩⟩
  exact hall.congr_right fun hkeeps => by rw [List.filter_eq_self.2 hkeeps]

theorem foldlM {Q : α → β → Prop} {f : γ → α → Building γ} {f' : γ → β → Building γ}
    (h : ∀ c a b, Q a b → T.Follows (f c a) (f' c b) Eq True) {xs : List α} {ys : List β}
    (hxs : List.Forall₂ Q xs ys) : ∀ c, T.Follows (xs.foldlM f c) (ys.foldlM f' c) Eq True := by
  induction hxs with
  | nil => exact fun c => pure rfl trivial
  | cons hab _ ih =>
    intro c
    rw [List.foldlM_cons, List.foldlM_cons]
    refine (h c _ _ hab).bind ?_
    rintro d _ rfl
    exact ih d

end Follows
end Trim
end OpenApi
