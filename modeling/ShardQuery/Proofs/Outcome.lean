import Mathlib.Data.List.Forall2
/-!
Computations that may fail. Main statements: a sequence succeeds when its parts do, a list is mapped when each of its
members is, and what all computations of a sequence come to.
-/

set_option autoImplicit false

namespace ShardQuery

variable {ε α β : Type}

theorem ok_of_bind {x : Except ε α} {f : α → Except ε β} {b : β} (done : x >>= f = .ok b) :
    ∃ a, x = .ok a ∧ f a = .ok b := by
  cases x with
  | error e => cases done
  | ok a => exact ⟨a, rfl, done⟩

theorem bind_of_ok {x : Except ε α} {f : α → Except ε β} {a : α} {b : β} (done : x = .ok a) (next : f a = .ok b) :
    x >>= f = .ok b := by
  rw [done]
  exact next

theorem ok_of_map {x : Except ε α} {f : α → β} {b : β} (done : x.map f = .ok b) : ∃ a, x = .ok a ∧ f a = b := by
  cases x with
  | error e => cases done
  | ok a => exact ⟨a, rfl, Except.ok.inj done⟩

-- What a computation comes to passes every test that its result passes.
theorem test_of_ok {x : Except ε α} {a : α} (done : x = .ok a) (test : α → Bool)
    (passed : x.toOption.any test = true) : test a = true := by
  subst done
  exact passed

theorem map_m_ok_iff {f : α → Except ε β} {as : List α} {bs : List β} :
    as.mapM f = .ok bs ↔ List.Forall₂ (fun a b => f a = .ok b) as bs := by
  induction as generalizing bs with
  | nil =>
      rw [List.mapM_nil, List.forall₂_nil_left_iff]
      constructor
      · intro done
        exact (Except.ok.inj done).symm
      · rintro rfl
        rfl
  | cons a as ih =>
      rw [List.mapM_cons, List.forall₂_cons_left_iff]
      constructor
      · intro done
        obtain ⟨b, first, done⟩ := ok_of_bind done
        obtain ⟨rest, others, done⟩ := ok_of_bind done
        exact ⟨b, rest, first, ih.mp others, (Except.ok.inj done).symm⟩
      · rintro ⟨b, rest, first, others, rfl⟩
        rw [first, ih.mpr others]
        rfl

theorem forall₂_at {R : α → β → Prop} {as : List α} {bs : List β} (related : List.Forall₂ R as bs) (i : Nat) (a : α)
    (held : as[i]? = some a) : ∃ b, bs[i]? = some b ∧ R a b := by
  obtain ⟨inside, rfl⟩ := List.getElem?_eq_some_iff.mp held
  have inside' : i < bs.length := related.length_eq ▸ inside
  exact ⟨bs[i], List.getElem?_eq_getElem inside', related.get inside inside'⟩

theorem forall₂_set {R : α → β → Prop} {as : List α} {bs : List β} {a : α} {b : β} (related : List.Forall₂ R as bs)
    (i : Nat) (held : bs[i]? = some b) (instead : R a b) : List.Forall₂ R (as.set i a) bs := by
  induction related generalizing i with
  | nil => cases held
  | cons first others ih =>
      cases i with
      | zero =>
          cases held
          exact .cons instead others
      | succ i => exact .cons first (ih i held)

theorem forall₂_origin {R : α → β → Prop} {as : List α} {bs : List β} (related : List.Forall₂ R as bs) (b : β)
    (member : b ∈ bs) : ∃ a ∈ as, R a b := by
  obtain ⟨i, held⟩ := List.mem_iff_getElem?.mp member
  obtain ⟨a, own, first⟩ := forall₂_at related.flip i b held
  exact ⟨a, List.mem_of_getElem? own, first⟩

theorem forall₂_total {R : α → β → Prop} {as : List α} (each : ∀ a ∈ as, ∃ b, R a b) : ∃ bs, List.Forall₂ R as bs := by
  induction as with
  | nil => exact ⟨[], .nil⟩
  | cons a as ih =>
      obtain ⟨b, first⟩ := each a List.mem_cons_self
      obtain ⟨bs, others⟩ := ih fun other member => each other (List.mem_cons_of_mem _ member)
      exact ⟨b :: bs, .cons first others⟩

theorem map_m_ok_origin {f : α → Except ε β} {as : List α} {bs : List β} (done : as.mapM f = .ok bs) (b : β)
    (member : b ∈ bs) : ∃ a ∈ as, f a = .ok b :=
  forall₂_origin (map_m_ok_iff.mp done) b member

theorem map_m_ok_total {f : α → Except ε β} {as : List α} :
    (∃ bs, as.mapM f = .ok bs) ↔ ∀ a ∈ as, ∃ b, f a = .ok b := by
  constructor
  · rintro ⟨bs, done⟩ a member
    obtain ⟨i, held⟩ := List.mem_iff_getElem?.mp member
    obtain ⟨b, -, made⟩ := forall₂_at (map_m_ok_iff.mp done) i a held
    exact ⟨b, made⟩
  · intro each
    obtain ⟨bs, made⟩ := forall₂_total each
    exact ⟨bs, map_m_ok_iff.mpr made⟩

theorem map_m_congr₂ {γ : Type} {f : α → Except ε γ} {g : β → Except ε γ} {as : List α} {bs : List β}
    (each : List.Forall₂ (fun a b => f a = g b) as bs) : as.mapM f = bs.mapM g := by
  induction each with
  | nil => rfl
  | cons first _ ih => rw [List.mapM_cons, List.mapM_cons, first, ih]

theorem map_m_failed {f : α → Except ε β} {as : List α} {e : ε} (failed : as.mapM f = .error e) :
    ∃ a ∈ as, ∃ e, f a = .error e := by
  by_contra none
  obtain ⟨bs, done⟩ := map_m_ok_total.mpr fun a member => show ∃ b, f a = .ok b by
    cases known : f a with
    | ok b => exact ⟨b, rfl⟩
    | error e => exact absurd ⟨a, member, e, known⟩ none
  rw [done] at failed
  cases failed

theorem ok_get_default {x : Except ε α} {a : α} (default : α) (done : x = .ok a) :
    x = .ok (x.toOption.getD default) ∧ x.toOption.getD default = a := by
  subst done
  exact ⟨rfl, rfl⟩

-- What succeeds for each member is a function of it.
theorem map_m_ok_image [Inhabited β] {f : α → Except ε β} {as : List α} {bs : List β} (done : as.mapM f = .ok bs) :
    ∃ image : α → β, (∀ a ∈ as, f a = .ok (image a)) ∧ bs = as.map image := by
  refine ⟨fun a => (f a).toOption.getD default, ?_⟩
  induction map_m_ok_iff.mp done with
  | nil => exact ⟨nofun, rfl⟩
  | @cons a b as bs first others ih =>
      obtain ⟨each, rest⟩ := ih (map_m_ok_iff.mpr others)
      obtain ⟨made, same⟩ := ok_get_default default first
      exact ⟨List.forall_mem_cons.mpr ⟨made, each⟩, by rw [List.map_cons, ← rest, same]⟩

theorem filter_m_ok {f : α → Except ε Bool} {as bs : List α} (done : as.filterM f = .ok bs) :
    ∃ keep : α → Bool, (∀ a ∈ as, f a = .ok (keep a)) ∧ bs = as.filter keep := by
  have loop (as kept bs : List α) (done : as.filterAuxM f kept = .ok bs) :
      (∀ a ∈ as, ∃ b, f a = .ok b) ∧ bs = (as.filter fun a => (f a).toOption.getD false).reverse ++ kept := by
    induction as generalizing kept with
    | nil => exact ⟨nofun, (Except.ok.inj done).symm⟩
    | cons a as ih =>
        obtain ⟨b, first, rest⟩ := ok_of_bind done
        obtain ⟨each, rfl⟩ := ih _ rest
        refine ⟨List.forall_mem_cons.mpr ⟨⟨b, first⟩, each⟩, ?_⟩
        rw [List.filter_cons, first]
        cases b with
        | true => simp [Except.toOption]
        | false => simp [Except.toOption]
  obtain ⟨kept, looped, done⟩ := ok_of_bind done
  obtain ⟨each, rfl⟩ := loop as [] kept looped
  refine ⟨fun a => (f a).toOption.getD false, fun a member => ?_, ?_⟩
  · obtain ⟨b, made⟩ := each a member
    exact (ok_get_default false made).1
  · rw [← Except.ok.inj done, List.append_nil, List.reverse_reverse]

theorem filter_m_of_ok {f : α → Except ε Bool} {as : List α} {keep : α → Bool} (each : ∀ a ∈ as, f a = .ok (keep a)) :
    as.filterM f = .ok (as.filter keep) := by
  have loop (as kept : List α) (each : ∀ a ∈ as, f a = .ok (keep a)) :
      as.filterAuxM f kept = .ok ((as.filter keep).reverse ++ kept) := by
    induction as generalizing kept with
    | nil => rfl
    | cons a as ih =>
        obtain ⟨first, others⟩ := List.forall_mem_cons.mp each
        refine bind_of_ok first ((ih _ others).trans ?_)
        cases taken : keep a with
        | true => simp [taken]
        | false => simp [taken]
  refine bind_of_ok (loop as [] each) ?_
  rw [List.append_nil, List.reverse_reverse]
  rfl

theorem filter_m_failed {f : α → Except ε Bool} {as : List α} {e : ε} (failed : as.filterM f = .error e) :
    ∃ a ∈ as, ∃ e, f a = .error e := by
  by_contra none
  have judged (a : α) (member : a ∈ as) : f a = .ok ((f a).toOption.getD false) := by
    cases known : f a with
    | ok kept => rfl
    | error e => exact absurd ⟨a, member, e, known⟩ none
  rw [filter_m_of_ok judged] at failed
  cases failed

theorem filter_m_congr {f g : α → Except ε Bool} {as : List α} (same : ∀ a ∈ as, f a = g a) :
    as.filterM f = as.filterM g := by
  have loop (as kept : List α) (same : ∀ a ∈ as, f a = g a) : as.filterAuxM f kept = as.filterAuxM g kept := by
    induction as generalizing kept with
    | nil => rfl
    | cons a as ih =>
        obtain ⟨first, others⟩ := List.forall_mem_cons.mp same
        rw [List.filterAuxM, List.filterAuxM, first]
        cases g a with
        | ok taken => exact ih _ others
        | error e => rfl
  rw [List.filterM, List.filterM, loop as [] same]

theorem for_m_ok_iff {f : α → Except ε Unit} {as : List α} : as.forM f = .ok () ↔ ∀ a ∈ as, f a = .ok () := by
  induction as with
  | nil => exact ⟨nofun, fun _ => rfl⟩
  | cons a as ih =>
      change (f a >>= fun _ => as.forM f) = .ok () ↔ _
      rw [List.forall_mem_cons, ← ih]
      constructor
      · intro done
        obtain ⟨⟨⟩, first, rest⟩ := ok_of_bind done
        exact ⟨first, rest⟩
      · exact fun ⟨first, rest⟩ => bind_of_ok first rest

theorem forall₂_imp_of_mem {R S : α → β → Prop} {as : List α} {bs : List β} (related : List.Forall₂ R as bs)
    (implies : ∀ a, ∀ b ∈ bs, R a b → S a b) : List.Forall₂ S as bs := by
  induction related with
  | nil => exact .nil
  | cons first _ ih =>
      refine .cons (implies _ _ List.mem_cons_self first) (ih ?_)
      exact fun a b among => implies a b (List.mem_cons_of_mem _ among)

theorem forall₂_join {γ : Type} {R : α → β → Prop} {S : α → γ → Prop} {T : β → γ → Prop} {as : List α} {bs : List β}
    {cs : List γ} (first : List.Forall₂ R as bs) (second : List.Forall₂ S as cs)
    (joins : ∀ a, ∀ b ∈ bs, ∀ c ∈ cs, R a b → S a c → T b c) : List.Forall₂ T bs cs := by
  induction first generalizing cs with
  | nil =>
      cases second
      exact .nil
  | cons related _ ih =>
      cases second with
      | cons other others =>
          refine .cons (joins _ _ List.mem_cons_self _ List.mem_cons_self related other) (ih others ?_)
          exact fun a b among c among' => joins a b (List.mem_cons_of_mem _ among) c (List.mem_cons_of_mem _ among')

-- What succeeds is good, and what fails may fail in this way.
def Comes (good : α → Prop) (allowed : ε → Prop) : Except ε α → Prop
  | .ok a => good a
  | .error e => allowed e

section Comes

variable {good : α → Prop} {good' : β → Prop} {allowed : ε → Prop} {x : Except ε α}

theorem comes_of_ok {a : α} (done : x = .ok a) (holds : good a) : Comes good allowed x := done ▸ holds

theorem comes_bind {f : α → Except ε β} (first : Comes good allowed x)
    (next : ∀ a, x = .ok a → good a → Comes good' allowed (f a)) : Comes good' allowed (x >>= f) := by
  cases x with
  | error e => exact first
  | ok a => exact next a rfl first

theorem comes_map {f : α → β} (first : Comes good allowed x) (next : ∀ a, x = .ok a → good a → good' (f a)) :
    Comes good' allowed (x.map f) := by
  cases x with
  | error e => exact first
  | ok a => exact next a rfl first

theorem comes_imp {also : α → Prop} (comes : Comes good allowed x) (implies : ∀ a, x = .ok a → good a → also a) :
    Comes also allowed x := by
  cases x with
  | error e => exact comes
  | ok a => exact implies a rfl comes

theorem comes_map_m {γ : Type} {f : α → Except ε β} {R : γ → β → Prop} {as : List α} {cs : List γ}
    (each : List.Forall₂ (fun a c => Comes (R c) allowed (f a)) as cs) :
    Comes (List.Forall₂ R cs) allowed (as.mapM f) := by
  induction each with
  | nil => exact .nil
  | cons first _ ih =>
      rw [List.mapM_cons]
      exact comes_bind first fun b _ own => comes_bind ih fun bs _ others => .cons own others

theorem comes_map_m_each {f : α → Except ε β} {as : List α} (each : ∀ a ∈ as, Comes (fun _ => True) allowed (f a)) :
    Comes (fun _ => True) allowed (as.mapM f) := by
  have pairs : List.Forall₂ (fun a (_ : α) => Comes (fun _ => True) allowed (f a)) as as := List.forall₂_same.mpr each
  exact comes_imp (comes_map_m pairs) fun _ _ _ => trivial

theorem comes_fold_m {γ : Type} {f : α → γ → Except ε α} {cs : List γ} {a : α}
    (each : ∀ a, good a → ∀ c ∈ cs, Comes good allowed (f a c)) (start : good a) :
    Comes good allowed (cs.foldlM f a) := by
  induction cs generalizing a with
  | nil => exact start
  | cons c cs ih =>
      rw [List.foldlM_cons]
      refine comes_bind (each a start c List.mem_cons_self) fun b _ reached => ?_
      exact ih (fun a before other among => each a before other (List.mem_cons_of_mem _ among)) reached

end Comes

-- Two computations fail alike, or both succeed with results that are related.
def Agree {ε' : Type} (related : α → β → Prop) : Except ε α → Except ε' β → Prop
  | .ok a, .ok b => related a b
  | .error _, .error _ => True
  | _, _ => False

section Agree

variable {ε' γ δ : Type} {R : α → β → Prop} {S : γ → δ → Prop} {x : Except ε α} {y : Except ε' β}

theorem agree_of_ok (forth : ∀ a, x = .ok a → ∃ b, y = .ok b ∧ R a b) (back : ∀ b, y = .ok b → ∃ a, x = .ok a) :
    Agree R x y := by
  cases x with
  | ok a =>
      obtain ⟨b, rfl, related⟩ := forth a rfl
      exact related
  | error e =>
      cases y with
      | ok b =>
          obtain ⟨a, failed⟩ := back b rfl
          cases failed
      | error e' => trivial

theorem agree_of_eq {x y : Except ε α} (same : x = y) : Agree Eq x y := by
  subst same
  cases x with
  | ok a => rfl
  | error e => trivial

theorem agree_ok {a : α} (agree : Agree R x y) (done : x = .ok a) : ∃ b, y = .ok b ∧ R a b := by
  subst done
  cases y with
  | ok b => exact ⟨b, rfl, agree⟩
  | error e => cases agree

theorem agree_ok_right {b : β} (agree : Agree R x y) (done : y = .ok b) : ∃ a, x = .ok a ∧ R a b := by
  subst done
  cases x with
  | ok a => exact ⟨a, rfl, agree⟩
  | error e => cases agree

theorem agree_imp {T : α → β → Prop} (agree : Agree R x y) (implies : ∀ a b, x = .ok a → y = .ok b → R a b → T a b) :
    Agree T x y := by
  cases x with
  | ok a =>
      cases y with
      | ok b => exact implies a b rfl rfl agree
      | error e => cases agree
  | error e =>
      cases y with
      | ok b => cases agree
      | error e' => trivial

theorem agree_bind {f : α → Except ε γ} {g : β → Except ε' δ} (agree : Agree R x y)
    (next : ∀ a b, x = .ok a → y = .ok b → R a b → Agree S (f a) (g b)) : Agree S (x >>= f) (y >>= g) := by
  cases x with
  | ok a =>
      cases y with
      | ok b => exact next a b rfl rfl agree
      | error e => cases agree
  | error e =>
      cases y with
      | ok b => cases agree
      | error e' => trivial

theorem agree_map {f : α → γ} {g : β → δ} (agree : Agree R x y)
    (next : ∀ a b, x = .ok a → y = .ok b → R a b → S (f a) (g b)) : Agree S (x.map f) (y.map g) := by
  cases x with
  | ok a =>
      cases y with
      | ok b => exact next a b rfl rfl agree
      | error e => cases agree
  | error e =>
      cases y with
      | ok b => cases agree
      | error e' => trivial

theorem agree_map_m {f : α → Except ε γ} {g : β → Except ε' δ} {as : List α} {bs : List β}
    (each : List.Forall₂ (fun a b => Agree S (f a) (g b)) as bs) : Agree (List.Forall₂ S) (as.mapM f) (bs.mapM g) := by
  induction each with
  | nil => exact .nil
  | cons first _ ih =>
      rw [List.mapM_cons, List.mapM_cons]
      exact agree_bind first fun c d _ _ own => agree_bind ih fun cs ds _ _ others => .cons own others

-- What agrees with computations that agree does so itself.
theorem agree_join {ζ : Type} {T : ζ → ζ → Prop} {R : ζ → α → Prop} {R' : ζ → β → Prop} {S : α → β → Prop}
    {z z' : Except ε ζ} (first : Agree R z x) (second : Agree R' z' y) (same : Agree S x y)
    (joins : ∀ c c' a b, R c a → R' c' b → S a b → T c c') : Agree T z z' := by
  cases z with
  | ok c =>
      obtain ⟨a, rfl, own⟩ := agree_ok first rfl
      obtain ⟨b, rfl, related⟩ := agree_ok same rfl
      cases z' with
      | ok c' => exact joins c c' a b own second related
      | error e => cases second
  | error e =>
      cases z' with
      | error e' => trivial
      | ok c' =>
          obtain ⟨b, rfl, -⟩ := agree_ok second rfl
          cases x with
          | ok a => cases first
          | error e' => cases same

-- A computation on a list that succeeds in every order, if it does in one, agrees on all orders.
theorem agree_of_perm {f : List α → Except ε (List γ)} {as bs : List α} (same : as.Perm bs)
    (ordered : ∀ as bs cs, as.Perm bs → f as = .ok cs → ∃ ds, f bs = .ok ds ∧ cs.Perm ds) :
    Agree List.Perm (f as) (f bs) := by
  refine agree_of_ok (fun cs done => ordered as bs cs same done) fun ds done => ?_
  obtain ⟨cs, done', -⟩ := ordered bs as ds same.symm done
  exact ⟨cs, done'⟩

theorem map_m_perm [Inhabited β] (f : α → Except ε β) {as bs : List α} (same : as.Perm bs) :
    Agree List.Perm (as.mapM f) (bs.mapM f) := by
  refine agree_of_perm same fun as bs cs same done => ?_
  obtain ⟨image, each, rfl⟩ := map_m_ok_image done
  refine ⟨bs.map image, map_m_ok_iff.mpr (List.forall₂_map_right_iff.mpr (List.forall₂_same.mpr ?_)), same.map image⟩
  exact fun b member => each b (same.mem_iff.mpr member)

theorem filter_m_perm (f : α → Except ε Bool) {as bs : List α} (same : as.Perm bs) :
    Agree List.Perm (as.filterM f) (bs.filterM f) := by
  refine agree_of_perm same fun as bs cs same done => ?_
  obtain ⟨keep, each, rfl⟩ := filter_m_ok done
  exact ⟨bs.filter keep, filter_m_of_ok fun b member => each b (same.mem_iff.mpr member), same.filter keep⟩

end Agree

end ShardQuery
