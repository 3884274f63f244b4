import Mathlib.Logic.Relation
import ShardQuery.Cancel
/-!
Cancellation tokens as they are handed out, cloned and cancelled. Main statement: whatever is done with tokens, one is
cancelled exactly if it was called off itself, through a clone, or through an ancestor or a clone of one; so that calling
a token off leaves its ancestors, its siblings and all tokens that do not descend from it as they are.
-/

set_option autoImplicit false

namespace ShardQuery

-- A token is named by its place in the order in which they are handed out.
inductive TokenStep where
  | new
  | child (parent : Nat)
  | clone (original : Nat)
  | cancel (token : Nat)

structure HandedTokens where
  flags : Cancellation
  tokens : List CancelToken

namespace HandedTokens

def none : HandedTokens := ⟨.none, []⟩

-- A step about a token that was never handed out does nothing.
def step (handed : HandedTokens) : TokenStep → HandedTokens
  | .new => ⟨handed.flags.token.2, handed.tokens ++ [handed.flags.token.1]⟩
  | .child parent =>
      match handed.tokens[parent]? with
      | some named => ⟨(handed.flags.child named).2, handed.tokens ++ [(handed.flags.child named).1]⟩
      | Option.none => handed
  | .clone original =>
      match handed.tokens[original]? with
      | some named => { handed with tokens := handed.tokens ++ [named] }
      | Option.none => handed
  | .cancel token =>
      match handed.tokens[token]? with
      | some named => { handed with flags := handed.flags.cancel named }
      | Option.none => handed

def after (steps : List TokenStep) : HandedTokens := steps.foldl step none

def flagsOf (handed : HandedTokens) (token : Nat) : List Nat := (handed.tokens[token]?).elim [] (·.flags)

def isCancelled (handed : HandedTokens) (token : Nat) : Bool :=
  (handed.tokens[token]?).elim false handed.flags.isCancelled

end HandedTokens

-- How a token has come about.
inductive TokenBirth where
  | new
  | child (parent : Nat)
  | clone (original : Nat)

-- How each token has come about, and which of them were called off. No flag is known here.
structure TokenHistory where
  births : List TokenBirth
  called : List Nat

namespace TokenHistory

def none : TokenHistory := ⟨[], []⟩

def note (history : TokenHistory) : TokenStep → TokenHistory
  | .new => { history with births := history.births ++ [.new] }
  | .child parent =>
      if parent < history.births.length then { history with births := history.births ++ [.child parent] } else history
  | .clone original =>
      if original < history.births.length then { history with births := history.births ++ [.clone original] }
      else history
  | .cancel token =>
      if token < history.births.length then { history with called := history.called ++ [token] } else history

def after (steps : List TokenStep) : TokenHistory := steps.foldl note none

end TokenHistory

section Ancestry

variable (births : List TokenBirth)

-- One token and its clones, and the clones of those.
def Alike : Nat → Nat → Prop := Relation.EqvGen fun original clone => births[clone]? = some (.clone original)

-- By one step to a child or more, where clones stand for one another.
inductive Descends : Nat → Nat → Prop
  | child {parent child token : Nat} (derived : births[child]? = some (.child parent))
      (alike : Alike births child token) : Descends parent token
  | further {ancestor parent child token : Nat} (above : Descends ancestor parent)
      (derived : births[child]? = some (.child parent)) (alike : Alike births child token) : Descends ancestor token

-- The tokens that go when one is called off: itself and its clones, and what descends from any of these.
def CallsOff (called token : Nat) : Prop :=
  Alike births called token ∨ ∃ ancestor, Alike births called ancestor ∧ Descends births ancestor token

-- Different children of one parent, or clones of such.
def Siblings (a b : Nat) : Prop :=
  ∃ first second parent other, first ≠ second ∧ births[first]? = some (.child parent) ∧ Alike births first a ∧
    births[second]? = some (.child other) ∧ Alike births second b ∧ Alike births parent other

end Ancestry

section Flags

-- The flags of a token by how it came about.
def Born (flagsOf : Nat → List Nat) (token : Nat) : TokenBirth → Prop
  | .new => ∃ flag, flagsOf token = [flag]
  | .child parent => parent < token ∧ ∃ flag, flagsOf token = flagsOf parent ++ [flag]
  | .clone original => original < token ∧ flagsOf token = flagsOf original

def TokenBirth.Fresh (births : List TokenBirth) (token : Nat) : Prop :=
  ∃ birth, births[token]? = some birth ∧ ∀ original, birth ≠ .clone original

structure Grown (births : List TokenBirth) (flagsOf : Nat → List Nat) : Prop where
  born : ∀ token birth, births[token]? = some birth → Born flagsOf token birth
  own : ∀ a b flag, TokenBirth.Fresh births a → TokenBirth.Fresh births b → (flagsOf a).getLast? = some flag →
    (flagsOf b).getLast? = some flag → a = b

variable {births : List TokenBirth} {flagsOf : Nat → List Nat}

theorem alike_flags (grown : Grown births flagsOf) {a b : Nat} (alike : Alike births a b) : flagsOf a = flagsOf b := by
  induction alike with
  | rel original clone cloned => exact (grown.born clone _ cloned).2.symm
  | refl token => rfl
  | symm a b _ ih => exact ih.symm
  | trans a b c _ _ first second => exact first.trans second

-- The flags of a descendant go on after those of its ancestor.
theorem descends_flags (grown : Grown births flagsOf) {ancestor token : Nat} (descends : Descends births ancestor token) :
    ∃ more, more ≠ [] ∧ flagsOf token = flagsOf ancestor ++ more := by
  induction descends with
  | child derived alike =>
      obtain ⟨-, flag, flags⟩ := grown.born _ _ derived
      exact ⟨[flag], List.cons_ne_nil _ _, (alike_flags grown alike).symm.trans flags⟩
  | further above derived alike ih =>
      obtain ⟨more, -, before⟩ := ih
      obtain ⟨-, flag, flags⟩ := grown.born _ _ derived
      refine ⟨more ++ [flag], by simp, ?_⟩
      rw [← alike_flags grown alike, flags, before, List.append_assoc]

theorem calls_off_flags (grown : Grown births flagsOf) {called token : Nat} (calls : CallsOff births called token) :
    ∃ more, flagsOf token = flagsOf called ++ more := by
  rcases calls with alike | ⟨ancestor, alike, descends⟩
  · exact ⟨[], by rw [List.append_nil, alike_flags grown alike]⟩
  · obtain ⟨more, -, flags⟩ := descends_flags grown descends
    exact ⟨more, by rw [flags, alike_flags grown alike]⟩

-- Every token is the clone of one that is none, or is such a one.
theorem fresh_original (grown : Grown births flagsOf) (token : Nat) (handed : token < births.length) :
    ∃ original, TokenBirth.Fresh births original ∧ Alike births original token := by
  induction token using Nat.strongRecOn with
  | ind token ih =>
      have birth := List.getElem?_eq_getElem handed
      cases came : births[token] with
      | clone original =>
          rw [came] at birth
          have earlier := (grown.born token _ birth).1
          obtain ⟨first, fresh, alike⟩ := ih original earlier (Nat.lt_trans earlier handed)
          exact ⟨first, fresh, .trans _ _ _ alike (.rel _ _ birth)⟩
      | new => exact ⟨token, ⟨_, birth, by simp [came]⟩, .refl token⟩
      | child parent => exact ⟨token, ⟨_, birth, by simp [came]⟩, .refl token⟩

theorem same_own_alike (grown : Grown births flagsOf) {a b flag : Nat} (handed : a < births.length)
    (handed' : b < births.length) (own : (flagsOf a).getLast? = some flag) (own' : (flagsOf b).getLast? = some flag) :
    Alike births a b := by
  obtain ⟨first, fresh, alike⟩ := fresh_original grown a handed
  obtain ⟨second, fresh', alike'⟩ := fresh_original grown b handed'
  obtain rfl := grown.own first second flag fresh fresh' (alike_flags grown alike ▸ own) (alike_flags grown alike' ▸ own')
  exact .trans _ _ _ (.symm _ _ alike) alike'

theorem own_flag (grown : Grown births flagsOf) {token : Nat} (handed : token < births.length) :
    ∃ flag, (flagsOf token).getLast? = some flag := by
  obtain ⟨original, ⟨birth, came, fresh⟩, alike⟩ := fresh_original grown token handed
  have born := grown.born original birth came
  rw [← alike_flags grown alike]
  cases birth with
  | new =>
      obtain ⟨flag, flags⟩ := born
      exact ⟨flag, by rw [flags, List.getLast?_singleton]⟩
  | child parent =>
      obtain ⟨-, flag, flags⟩ := born
      exact ⟨flag, by rw [flags, List.getLast?_concat]⟩
  | clone other => exact absurd rfl (fresh other)

theorem calls_off_child {called parent child : Nat} (calls : CallsOff births called parent)
    (derived : births[child]? = some (.child parent)) : CallsOff births called child := by
  rcases calls with alike | ⟨ancestor, alike, descends⟩
  · exact .inr ⟨parent, alike, .child derived (.refl child)⟩
  · exact .inr ⟨ancestor, alike, .further descends derived (.refl child)⟩

theorem descends_alike {ancestor token other : Nat} (descends : Descends births ancestor token)
    (alike : Alike births token other) : Descends births ancestor other := by
  cases descends with
  | child derived near => exact .child derived (.trans _ _ _ near alike)
  | further above derived near => exact .further above derived (.trans _ _ _ near alike)

theorem calls_off_alike {called token other : Nat} (calls : CallsOff births called token)
    (alike : Alike births token other) : CallsOff births called other := by
  rcases calls with near | ⟨ancestor, near, descends⟩
  · exact .inl (.trans _ _ _ near alike)
  · exact .inr ⟨ancestor, near, descends_alike descends alike⟩

-- A token bears the own flag of another one only if it is like that one or descends from it.
theorem borne_called_off (grown : Grown births flagsOf) {called flag : Nat} (handed : called < births.length)
    (own : (flagsOf called).getLast? = some flag) (token : Nat) (handed' : token < births.length)
    (borne : flag ∈ flagsOf token) : CallsOff births called token := by
  induction token using Nat.strongRecOn with
  | ind token ih =>
      have alone (last : (flagsOf token).getLast? = some flag) : CallsOff births called token :=
        .inl (same_own_alike grown handed handed' own last)
      have birth := List.getElem?_eq_getElem handed'
      have born := grown.born token _ birth
      cases came : births[token] with
      | new =>
          rw [came] at born
          obtain ⟨only, flags⟩ := born
          rw [flags, List.mem_singleton] at borne
          exact alone (by rw [flags, borne, List.getLast?_singleton])
      | child parent =>
          rw [came] at born birth
          obtain ⟨earlier, last, flags⟩ := born
          rw [flags, List.mem_append, List.mem_singleton] at borne
          rcases borne with inherited | same
          · exact calls_off_child (ih parent earlier (Nat.lt_trans earlier handed') inherited) birth
          · exact alone (by rw [flags, same, List.getLast?_concat])
      | clone original =>
          rw [came] at born birth
          obtain ⟨earlier, flags⟩ := born
          exact calls_off_alike (ih original earlier (Nat.lt_trans earlier handed') (flags ▸ borne)) (.rel _ _ birth)

theorem borne_iff_called_off (grown : Grown births flagsOf) {called token flag : Nat} (handed : called < births.length)
    (handed' : token < births.length) (own : (flagsOf called).getLast? = some flag) :
    flag ∈ flagsOf token ↔ CallsOff births called token := by
  constructor
  · exact borne_called_off grown handed own token handed'
  · intro calls
    obtain ⟨more, flags⟩ := calls_off_flags grown calls
    rw [flags]
    exact List.mem_append_left more (List.mem_of_getLast? own)

-- A descendant has more flags than its ancestor, so that calling it off does not reach up.
theorem ancestor_spared (grown : Grown births flagsOf) {ancestor token given : Nat}
    (descends : Descends births ancestor given) (alike : Alike births ancestor token) : ¬CallsOff births given token := by
  intro calls
  obtain ⟨more, some, flags⟩ := descends_flags grown descends
  obtain ⟨rest, back⟩ := calls_off_flags grown calls
  rw [← alike_flags grown alike, flags, List.append_assoc, List.self_eq_append_right] at back
  exact some (List.append_eq_nil_iff.mp back).1

theorem sibling_spared (grown : Grown births flagsOf) {given token : Nat} (siblings : Siblings births given token) :
    ¬CallsOff births given token := by
  intro calls
  obtain ⟨first, second, parent, other, apart, derived, alike, derived', alike', parents⟩ := siblings
  obtain ⟨-, flag, flags⟩ := grown.born first _ derived
  obtain ⟨-, flag', flags'⟩ := grown.born second _ derived'
  obtain ⟨more, longer⟩ := calls_off_flags grown calls
  rw [← alike_flags grown alike, ← alike_flags grown alike', flags, flags', alike_flags grown parents, List.append_assoc,
    List.append_cancel_left_eq, List.singleton_append, List.cons.injEq] at longer
  have fresh {child parent : Nat} (derived : births[child]? = some (.child parent)) : TokenBirth.Fresh births child :=
    ⟨_, derived, by simp⟩
  refine apart (grown.own first second flag (fresh derived) (fresh derived') ?_ ?_)
  · rw [flags, List.getLast?_concat]
  · rw [flags', longer.1, List.getLast?_concat]

end Flags

section Steps

-- What ties the tokens at hand to how they came about: the flags raised are the own flags of the tokens called off.
structure Recounts (history : TokenHistory) (handed : HandedTokens) : Prop where
  handed_out : handed.tokens.length = history.births.length
  grown : Grown history.births handed.flagsOf
  issued : ∀ token, ∀ flag ∈ handed.flagsOf token, flag < handed.flags.issued
  raised : ∀ flag, flag ∈ handed.flags.raised ↔
    ∃ called ∈ history.called, (handed.flagsOf called).getLast? = some flag
  known : ∀ called ∈ history.called, called < history.births.length

variable {history : TokenHistory} {handed : HandedTokens}

theorem flags_of_token {token : Nat} {named : CancelToken} (found : handed.tokens[token]? = some named) :
    handed.flagsOf token = named.flags := by
  rw [HandedTokens.flagsOf, found, Option.elim_some]

theorem flags_of_earlier (flags : Cancellation) (named : CancelToken) {token : Nat}
    (earlier : token < handed.tokens.length) :
    HandedTokens.flagsOf ⟨flags, handed.tokens ++ [named]⟩ token = handed.flagsOf token := by
  simp only [HandedTokens.flagsOf, List.getElem?_append_left earlier]

theorem flags_of_latest (flags : Cancellation) (named : CancelToken) :
    HandedTokens.flagsOf ⟨flags, handed.tokens ++ [named]⟩ handed.tokens.length = named.flags :=
  flags_of_token List.getElem?_concat_length

theorem flags_of_unknown {token : Nat} (unknown : handed.tokens.length ≤ token) : handed.flagsOf token = [] := by
  rw [HandedTokens.flagsOf, List.getElem?_eq_none unknown, Option.elim_none]

theorem known_token (recounts : Recounts history handed) {token : Nat} (known : token < history.births.length) :
    ∃ named, handed.tokens[token]? = some named :=
  ⟨_, List.getElem?_eq_getElem (recounts.handed_out ▸ known)⟩

theorem birth_earlier_or_latest {births : List TokenBirth} {latest birth : TokenBirth} {token : Nat}
    (found : (births ++ [latest])[token]? = some birth) :
    births[token]? = some birth ∧ token < births.length ∨ token = births.length ∧ latest = birth := by
  rcases Nat.lt_trichotomy token births.length with earlier | rfl | later
  · rw [List.getElem?_append_left earlier] at found
    exact .inl ⟨found, earlier⟩
  · rw [List.getElem?_concat_length] at found
    exact .inr ⟨rfl, Option.some.inj found⟩
  · rw [List.getElem?_eq_none (by simp; omega)] at found
    cases found

theorem born_kept {before after : Nat → List Nat} {token bound : Nat} {birth : TokenBirth}
    (kept : ∀ earlier < bound, after earlier = before earlier) (earlier : token < bound)
    (born : Born before token birth) : Born after token birth := by
  cases birth with
  | new => exact born.imp fun flag flags => (kept token earlier).trans flags
  | child parent =>
      obtain ⟨above, flag, flags⟩ := born
      exact ⟨above, flag, by rw [kept token earlier, kept parent (Nat.lt_trans above earlier), flags]⟩
  | clone original =>
      obtain ⟨above, flags⟩ := born
      exact ⟨above, by rw [kept token earlier, kept original (Nat.lt_trans above earlier), flags]⟩

-- One more token, which is a clone or has an own flag that no token had before.
theorem handed_out_recounts (recounts : Recounts history handed) {flags : Cancellation} {named : CancelToken}
    {birth : TokenBirth} (same : flags.raised = handed.flags.raised) (issued : handed.flags.issued ≤ flags.issued)
    (bounded : ∀ flag ∈ named.flags, flag < flags.issued)
    (born : Born (HandedTokens.flagsOf ⟨flags, handed.tokens ++ [named]⟩) history.births.length birth)
    (fresh : (∃ original, birth = .clone original) ∨ named.flags.getLast? = some handed.flags.issued) :
    Recounts { history with births := history.births ++ [birth] } ⟨flags, handed.tokens ++ [named]⟩ := by
  have out := recounts.handed_out
  have kept (token : Nat) (earlier : token < history.births.length) :
      HandedTokens.flagsOf ⟨flags, handed.tokens ++ [named]⟩ token = handed.flagsOf token :=
    flags_of_earlier flags named (out ▸ earlier)
  have latest : HandedTokens.flagsOf ⟨flags, handed.tokens ++ [named]⟩ history.births.length = named.flags :=
    out ▸ flags_of_latest flags named
  -- The own flag of the token handed out last, if that is no clone, is above all flags before.
  have apart (a b flag : Nat) (old : TokenBirth.Fresh history.births a) (earlier : a < history.births.length)
      (last : b = history.births.length) (proper : ∀ original, birth ≠ .clone original)
      (own : (HandedTokens.flagsOf ⟨flags, handed.tokens ++ [named]⟩ a).getLast? = some flag)
      (own' : (HandedTokens.flagsOf ⟨flags, handed.tokens ++ [named]⟩ b).getLast? = some flag) : False := by
    rw [kept a earlier] at own
    rw [last, latest] at own'
    have below := recounts.issued a flag (List.mem_of_getLast? own)
    rcases fresh with ⟨original, cloned⟩ | named
    · exact proper original cloned
    · rw [named] at own'
      exact Nat.lt_irrefl _ (Option.some.inj own' ▸ below)
  refine ⟨by simp [out], ⟨fun token came found => ?_, fun a b flag first second own own' => ?_⟩, fun token flag borne => ?_,
    fun flag => ?_, fun called among => ?_⟩
  · rcases birth_earlier_or_latest found with ⟨found, earlier⟩ | ⟨rfl, rfl⟩
    · exact born_kept kept earlier (recounts.grown.born token came found)
    · exact born
  · obtain ⟨came, found, proper⟩ := first
    obtain ⟨came', found', proper'⟩ := second
    rcases birth_earlier_or_latest found with ⟨found, earlier⟩ | ⟨last, rfl⟩ <;>
      rcases birth_earlier_or_latest found' with ⟨found', earlier'⟩ | ⟨last', rfl⟩
    · rw [kept a earlier] at own
      rw [kept b earlier'] at own'
      exact recounts.grown.own a b flag ⟨came, found, proper⟩ ⟨came', found', proper'⟩ own own'
    · exact (apart a b flag ⟨came, found, proper⟩ earlier last' proper' own own').elim
    · exact (apart b a flag ⟨came', found', proper'⟩ earlier' last proper own' own).elim
    · rw [last, last']
  · rcases Nat.lt_trichotomy token history.births.length with earlier | rfl | later
    · rw [kept token earlier] at borne
      exact Nat.lt_of_lt_of_le (recounts.issued token flag borne) issued
    · rw [latest] at borne
      exact bounded flag borne
    · rw [flags_of_unknown (by simp [out]; omega)] at borne
      cases borne
  · rw [same, recounts.raised flag]
    refine exists_congr fun called => and_congr_right fun among => ?_
    rw [kept called (recounts.known called among)]
  · rw [List.length_append]
    exact Nat.lt_add_right _ (recounts.known called among)

theorem none_recounts : Recounts .none .none := by
  refine ⟨rfl, ⟨fun _ _ found => (nomatch found), fun _ _ _ first => ?_⟩, fun _ _ borne => (nomatch borne),
    fun flag => ?_, fun _ among => (nomatch among)⟩
  · obtain ⟨_, found, -⟩ := first
    cases found
  · constructor
    · intro among
      cases among
    · rintro ⟨_, among, -⟩
      cases among

theorem step_recounts (recounts : Recounts history handed) (step : TokenStep) :
    Recounts (history.note step) (handed.step step) := by
  have out := recounts.handed_out
  cases step with
  | new =>
      refine handed_out_recounts recounts rfl (Nat.le_succ _) (fun flag borne => ?_) ⟨handed.flags.issued, ?_⟩ (.inr rfl)
      · rw [List.mem_singleton.mp borne]
        exact Nat.lt_succ_self _
      · rw [← out, flags_of_latest]
        rfl
  | child parent =>
      rcases Nat.lt_or_ge parent history.births.length with known | unknown
      · obtain ⟨named, found⟩ := known_token recounts known
        simp only [TokenHistory.note, HandedTokens.step, if_pos known, found]
        refine handed_out_recounts recounts rfl (Nat.le_succ _) (fun flag borne => ?_)
          ⟨known, handed.flags.issued, ?_⟩ (.inr List.getLast?_concat)
        · rcases List.mem_append.mp borne with inherited | own
          · exact Nat.lt_succ_of_lt (recounts.issued parent flag (flags_of_token found ▸ inherited))
          · rw [List.mem_singleton.mp own]
            exact Nat.lt_succ_self _
        · rw [← out, flags_of_latest, flags_of_earlier _ _ (out ▸ known), flags_of_token found]
          rfl
      · simp only [TokenHistory.note, HandedTokens.step, if_neg (Nat.not_lt.mpr unknown),
          List.getElem?_eq_none (out ▸ unknown)]
        exact recounts
  | clone original =>
      rcases Nat.lt_or_ge original history.births.length with known | unknown
      · obtain ⟨named, found⟩ := known_token recounts known
        simp only [TokenHistory.note, HandedTokens.step, if_pos known, found]
        refine handed_out_recounts recounts rfl (Nat.le_refl _) (fun flag borne => ?_) ⟨known, ?_⟩ (.inl ⟨original, rfl⟩)
        · exact recounts.issued original flag (flags_of_token found ▸ borne)
        · rw [← out, flags_of_latest, flags_of_earlier _ _ (out ▸ known), flags_of_token found]
      · simp only [TokenHistory.note, HandedTokens.step, if_neg (Nat.not_lt.mpr unknown),
          List.getElem?_eq_none (out ▸ unknown)]
        exact recounts
  | cancel token =>
      rcases Nat.lt_or_ge token history.births.length with known | unknown
      · obtain ⟨named, found⟩ := known_token recounts known
        obtain ⟨own, last⟩ := own_flag recounts.grown known
        have raising : handed.flags.cancel named =
            { handed.flags with raised := own :: handed.flags.raised } := by
          rw [Cancellation.cancel, ← flags_of_token found, last]
        simp only [TokenHistory.note, HandedTokens.step, if_pos known, found, raising]
        refine ⟨out, recounts.grown, recounts.issued, fun flag => ?_, fun called among => ?_⟩
        · rw [List.mem_cons, recounts.raised flag]
          constructor
          · rintro (rfl | ⟨called, among, owns⟩)
            · exact ⟨token, List.mem_append_right _ (List.mem_singleton_self _), last⟩
            · exact ⟨called, List.mem_append_left _ among, owns⟩
          · rintro ⟨called, among, owns⟩
            rcases List.mem_append.mp among with earlier | now
            · exact .inr ⟨called, earlier, owns⟩
            · rw [List.mem_singleton.mp now] at owns
              exact .inl (Option.some.inj (owns.symm.trans last))
        · rcases List.mem_append.mp among with earlier | now
          · exact recounts.known called earlier
          · exact List.mem_singleton.mp now ▸ known
      · simp only [TokenHistory.note, HandedTokens.step, if_neg (Nat.not_lt.mpr unknown),
          List.getElem?_eq_none (out ▸ unknown)]
        exact recounts

theorem steps_recount (recounts : Recounts history handed) (steps : List TokenStep) :
    Recounts (steps.foldl TokenHistory.note history) (steps.foldl HandedTokens.step handed) := by
  induction steps generalizing history handed with
  | nil => exact recounts
  | cons step steps ih => exact ih (step_recounts recounts step)

theorem after_recounts (steps : List TokenStep) : Recounts (.after steps) (.after steps) :=
  steps_recount none_recounts steps

theorem cancelled_iff_called_off (recounts : Recounts history handed) {token : Nat}
    (known : token < history.births.length) :
    handed.isCancelled token = true ↔ ∃ called ∈ history.called, CallsOff history.births called token := by
  obtain ⟨named, found⟩ := known_token recounts known
  have raised : handed.isCancelled token = true ↔ ∃ flag ∈ handed.flagsOf token, flag ∈ handed.flags.raised := by
    rw [HandedTokens.isCancelled, flags_of_token found, found, Option.elim_some, Cancellation.isCancelled, List.any_eq_true]
    simp only [List.contains_iff_mem]
  rw [raised]
  constructor
  · rintro ⟨flag, borne, raised⟩
    obtain ⟨called, among, own⟩ := (recounts.raised flag).mp raised
    exact ⟨called, among, (borne_iff_called_off recounts.grown (recounts.known called among) known own).mp borne⟩
  · rintro ⟨called, among, calls⟩
    obtain ⟨flag, own⟩ := own_flag recounts.grown (recounts.known called among)
    exact ⟨flag, (borne_iff_called_off recounts.grown (recounts.known called among) known own).mpr calls,
      (recounts.raised flag).mpr ⟨called, among, own⟩⟩

-- One history knows the same tokens as another one and no further call, but perhaps the given one.
structure CalledBesides (given : Nat) (history other : TokenHistory) : Prop where
  births : history.births = other.births
  more : ∀ called ∈ other.called, called ∈ history.called
  only : ∀ called ∈ history.called, called ∈ other.called ∨ called = given

theorem cancel_called_besides (given : Nat) (history : TokenHistory) :
    CalledBesides given (history.note (.cancel given)) history := by
  rw [TokenHistory.note]
  split
  · refine ⟨rfl, fun called among => List.mem_append_left _ among, fun called among => ?_⟩
    exact (List.mem_append.mp among).imp_right List.mem_singleton.mp
  · exact ⟨rfl, fun _ among => among, fun _ among => .inl among⟩

theorem step_called_besides {given : Nat} {history other : TokenHistory} (besides : CalledBesides given history other)
    (step : TokenStep) : CalledBesides given (history.note step) (other.note step) := by
  obtain ⟨births, more, only⟩ := besides
  cases step with
  | new => exact ⟨congrArg (· ++ [TokenBirth.new]) births, more, only⟩
  | child parent =>
      simp only [TokenHistory.note, births]
      split
      · exact ⟨rfl, more, only⟩
      · exact ⟨births, more, only⟩
  | clone original =>
      simp only [TokenHistory.note, births]
      split
      · exact ⟨rfl, more, only⟩
      · exact ⟨births, more, only⟩
  | cancel token =>
      simp only [TokenHistory.note, births]
      split
      · refine ⟨rfl, fun called among => ?_, fun called among => ?_⟩
        · rw [List.mem_append] at among ⊢
          exact among.imp_left (more called)
        · rw [List.mem_append] at among ⊢
          rcases among with earlier | now
          · exact (only called earlier).imp_left .inl
          · exact .inl (.inr now)
      · exact ⟨births, more, only⟩

theorem steps_called_besides {given : Nat} {history other : TokenHistory} (besides : CalledBesides given history other)
    (steps : List TokenStep) :
    CalledBesides given (steps.foldl TokenHistory.note history) (steps.foldl TokenHistory.note other) := by
  induction steps generalizing history other with
  | nil => exact besides
  | cons step steps ih => exact ih (step_called_besides besides step)

theorem after_called_besides (before : List TokenStep) (given : Nat) (later : List TokenStep) :
    CalledBesides given (.after (before ++ .cancel given :: later)) (.after (before ++ later)) := by
  rw [TokenHistory.after, TokenHistory.after, List.foldl_append, List.foldl_append, List.foldl_cons]
  exact steps_called_besides (cancel_called_besides given _) later

theorem unknown_not_cancelled (recounts : Recounts history handed) {token : Nat}
    (unknown : history.births.length ≤ token) : handed.isCancelled token = false := by
  rw [HandedTokens.isCancelled, List.getElem?_eq_none (recounts.handed_out ▸ unknown), Option.elim_none]

-- A token that the given one does not call off is as if that one had never been called off.
theorem call_spares_others (before : List TokenStep) (given : Nat) (later : List TokenStep) (token : Nat)
    (spared : ¬CallsOff (TokenHistory.after (before ++ .cancel given :: later)).births given token) :
    (HandedTokens.after (before ++ .cancel given :: later)).isCancelled token =
      (HandedTokens.after (before ++ later)).isCancelled token := by
  have besides := after_called_besides before given later
  have with_call := after_recounts (before ++ .cancel given :: later)
  have without := after_recounts (before ++ later)
  rcases Nat.lt_or_ge token (TokenHistory.after (before ++ later)).births.length with known | unknown
  · rw [Bool.eq_iff_iff, cancelled_iff_called_off with_call (besides.births ▸ known),
      cancelled_iff_called_off without known, ← besides.births]
    constructor
    · rintro ⟨called, among, calls⟩
      rcases besides.only called among with among | rfl
      · exact ⟨called, among, calls⟩
      · exact (spared calls).elim
    · rintro ⟨called, among, calls⟩
      exact ⟨called, besides.more called among, calls⟩
  · rw [unknown_not_cancelled without unknown, unknown_not_cancelled with_call (besides.births ▸ unknown)]

theorem cancelled_by_ancestry (steps : List TokenStep) :
    (HandedTokens.after steps).tokens.length = (TokenHistory.after steps).births.length ∧
    (∀ token < (TokenHistory.after steps).births.length, (HandedTokens.after steps).isCancelled token = true ↔
      ∃ called ∈ (TokenHistory.after steps).called, CallsOff (TokenHistory.after steps).births called token) ∧
    (∀ before given later, steps = before ++ .cancel given :: later →
      ∀ token, ¬CallsOff (TokenHistory.after steps).births given token →
        (HandedTokens.after steps).isCancelled token = (HandedTokens.after (before ++ later)).isCancelled token) ∧
    (∀ given ancestor token, Descends (TokenHistory.after steps).births ancestor given →
      Alike (TokenHistory.after steps).births ancestor token →
        ¬CallsOff (TokenHistory.after steps).births given token) ∧
    ∀ given token, Siblings (TokenHistory.after steps).births given token →
      ¬CallsOff (TokenHistory.after steps).births given token := by
  have recounts := after_recounts steps
  refine ⟨recounts.handed_out, fun token known => cancelled_iff_called_off recounts known, ?_,
    fun given ancestor token => ancestor_spared recounts.grown, fun given token => sibling_spared recounts.grown⟩
  rintro before given later rfl token spared
  exact call_spares_others before given later token spared

-- A token with two children, of which the first is called off before it has a child of its own.
theorem late_child_called_off :
    let steps : List TokenStep := [.new, .child 0, .child 0, .cancel 1, .clone 1, .child 3]
    (HandedTokens.after steps).isCancelled 4 = true ∧ (HandedTokens.after steps).isCancelled 0 =
      (HandedTokens.after [.new, .child 0, .child 0, .clone 1, .child 3]).isCancelled 0 := by
  intro steps
  obtain ⟨-, exactly, others, above, -⟩ := cancelled_by_ancestry steps
  constructor
  · refine (exactly 4 (by decide)).mpr ⟨1, List.mem_singleton_self 1, .inr ⟨3, .rel _ _ rfl, ?_⟩⟩
    exact .child rfl (.refl 4)
  · refine others [.new, .child 0, .child 0] 1 [.clone 1, .child 3] rfl 0 (above 1 0 0 ?_ (.refl 0))
    exact .child rfl (.refl 1)

end Steps

end ShardQuery
