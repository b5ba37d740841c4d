import TokenForge.Cli.Reader
import TokenForge.Proofs.Except
import TokenForge.Proofs.Text.Utf8

/-!
# Options in any order

The options of a command are given in any order, each with its value in the same word or in the next
one. They are accepted exactly if no option but the certificate is given twice and no two of them
exclude each other, and then each of them counts alike wherever it stands; only certificates have an
order among themselves (`read_given`).

* `Given` — an option as it is given, and `Given.words`, the words for it;
* `Compatible` — options that may be given together;
* `Says` — arguments that say what options say;
* `State.readFrom_given` — the words of some options are read as one assignment after another.
-/

namespace TokenForge.Cli

/-! ### Options as they are given -/

/-- **An option as it is given**, with a value that is not empty. A value in a word of its own does
not begin with a dash. -/
structure Given where
  opt : Opt
  value : String
  /-- Whether the value is in the same word. -/
  isJoined : Bool
  value_ne : value ≠ "" := by decide
  undashed : isJoined = false → value.toList.head? ≠ some '-' := by decide

/-- **The words for an option and its value.** -/
def Given.words (g : Given) : List Bytes :=
  if g.isJoined then [utf8 ("--" ++ g.opt.long ++ "=" ++ g.value)]
  else [utf8 ("--" ++ g.opt.long), utf8 g.value]

/-- How often an option is given. -/
def timesGiven (gs : List Given) (o : Opt) : Nat := gs.countP fun g => g.opt = o

/-- **Options that may be given together.** -/
structure Compatible (gs : List Given) : Prop where
  /-- Only certificates are given more than once. -/
  once : ∀ o, o ≠ .cert → timesGiven gs o ≤ 1
  /-- There is one place for the secret to come from. -/
  oneSecret : ¬(0 < timesGiven gs .secret ∧ 0 < timesGiven gs .secretEnv)

/-- **What a field of the arguments says**: the value of its option, wherever that is given, and
what is usual if it is not given. -/
structure FieldSays {α : Type} (gs : List Given) (o : Opt) (make : String → α) (usual x : α) :
    Prop where
  given : ∀ g ∈ gs, g.opt = o → x = make g.value
  absent : timesGiven gs o = 0 → x = usual

/-- **Arguments that say what options say.** The certificates are those given, in their order. -/
inductive Says (gs : List Given) : Command → Arguments → Prop
  | unencoded {a : UnencodedArguments} :
    FieldSays gs .payload some none a.payload →
      FieldSays gs .secret some none a.secret →
        FieldSays gs .secretEnv some none a.secretEnv → Says gs .unencoded (.unencoded a)
  | chained {a : ChainedArguments} :
    FieldSays gs .payload some none a.payload →
      FieldSays gs .certDir Path.ofText (.ofText ".") a.certDir →
        FieldSays gs .key Path.ofText (.ofText "leaf_key.pem") a.key →
          a.certs = (gs.filter fun g => g.opt = .cert).map (fun g => Path.ofText g.value) →
            Says gs .chained (.chained a)

/-- **The same options in another order**, each spelled in either way, and the certificates in the
same order. -/
structure Reordered (gs hs : List Given) : Prop where
  values : (hs.map fun g => (g.opt, g.value)).Perm (gs.map fun g => (g.opt, g.value))
  certs : (hs.filter fun g => g.opt = .cert).map Given.value =
    (gs.filter fun g => g.opt = .cert).map Given.value

/-- Faults of options that may not be given together. -/
inductive Fault.IsClash (gs : List Given) : Fault → Prop
  | repeated {o : Opt} : 2 ≤ timesGiven gs o → IsClash gs (.repeated o)
  | conflict {o p : Opt} : 0 < timesGiven gs o → 0 < timesGiven gs p → o.excludes p = true →
    IsClash gs (.conflict o p)

/-! ### What the words look like -/

theorem utf8_dashes : utf8 "--" = [dash, dash] := by decide

theorem utf8_equals : utf8 "=" = [equalsSign] := by decide

/-- The word of an option has no equals sign. -/
theorem equalsSign_not_mem_long (o : Opt) : ∀ b ∈ utf8 o.long, (b ≠ equalsSign) = true := by
  have hall : (utf8 o.long).all (· ≠ equalsSign) = true := by cases o <;> decide
  simpa using hall

/-- The word of an option alone names it, with no value. -/
theorem wordOf_option (o : Opt) :
    Word.of (utf8 ("--" ++ o.long)) = .long (utf8 o.long) none := by
  cases o <;> decide

/-- **An option and its value in one word.** The value may hold equals signs. -/
theorem wordOf_joined (o : Opt) (value : String) :
    Word.of (utf8 ("--" ++ o.long ++ "=" ++ value)) =
      .long (utf8 o.long) (some (utf8 value)) := by
  have hword : utf8 ("--" ++ o.long ++ "=" ++ value) =
      dash :: dash :: (utf8 o.long ++ equalsSign :: utf8 value) := by
    rw [utf8_append, utf8_append, utf8_append, utf8_dashes, utf8_equals]
    simp
  have hname : ∀ b ∈ utf8 o.long, decide (b ≠ equalsSign) = true := fun b hb => by
    simpa using equalsSign_not_mem_long o b hb
  have hne : utf8 o.long ++ equalsSign :: utf8 value ≠ [] := by simp
  -- the name is all that comes before the first equals sign, and it has none itself
  rw [hword, Word.of, if_neg (by simp), if_pos rfl, Word.ofLong, if_neg hne,
    List.takeWhile_append_of_pos hname, List.dropWhile_append_of_pos hname]
  simp

/-- A value that does not begin with a dash is no option. -/
theorem wordOf_value {value : String} (h : value.toList.head? ≠ some '-') :
    Word.of (utf8 value) = .plain := by
  -- words of less than two bytes are plain whatever they hold
  match hbytes : utf8 value with
  | [] => rfl
  | [_] => rfl
  | a :: b :: rest =>
    have ha : a ≠ dash := fun hdash => h (head?_of_utf8_eq_dash (hdash ▸ hbytes))
    rw [Word.of, if_pos ha]

/-- **A command knows its options** by their names. -/
theorem named?_option {c : Command} {o : Opt} (h : o ∈ c.options) :
    (Scope.command c).named? (utf8 o.long) = some (.option o) := by
  revert h
  cases c <;> cases o <;> decide

/-! ### What options set -/

/-- One option more is counted for its own kind. -/
theorem timesGiven_cons (g : Given) (gs : List Given) (o : Opt) :
    timesGiven (g :: gs) o = timesGiven gs o + if g.opt = o then 1 else 0 := by
  simp [timesGiven, List.countP_cons]

def Given.setting (g : Given) : Setting :=
  match g.opt with
  | .payload => .payload g.value
  | .secret => .secret g.value
  | .secretEnv => .secretEnv g.value
  | .certDir => .certDir (.ofText g.value)
  | .key => .key (.ofText g.value)
  | .cert => .cert (.ofText g.value)

/-- **A value that is a text and not empty is taken** by every option. -/
theorem Given.setting_eq (g : Given) : g.opt.setting (utf8 g.value) = .ok g.setting := by
  have htext := text?_utf8 g.value
  have hne := utf8_ne_nil g.value_ne
  unfold Opt.setting Given.setting
  cases g.opt <;> simp [htext, hne, Path.ofText]

namespace State

variable {c : Command} {s t u : State} {g : Given} {gs : List Given}

/-- The state after an option and its value. -/
def take (c : Command) (s : State) (g : Given) : Except Halt State :=
  orHalt c (s.assign g.opt (some (utf8 g.value)))

def takeAll (c : Command) (s : State) (gs : List Given) : Except Halt State :=
  gs.foldlM (take c) s

/-- The misuse of giving an option again. -/
def haltRepeated (c : Command) (o : Opt) : Halt :=
  .misuse { fault := .repeated o, scope := .command c }

/-- **An option with its value is put behind those that are there**, unless it is given again. -/
theorem take_eq (c : Command) (s : State) (g : Given) :
    take c s g =
      if g.opt ∈ s.used ∧ g.opt ≠ .cert then .error (haltRepeated c g.opt)
      else .ok { s with used := if g.opt ∈ s.used then s.used else s.used ++ [g.opt]
                        settings := s.settings ++ [g.setting] } := by
  -- only the certificate may be given again
  have hrepeats : g.opt.repeats = true ↔ g.opt = .cert := by cases g.opt <;> simp [Opt.repeats]
  unfold take assign
  simp only [List.contains_iff_mem, hrepeats, g.setting_eq]
  split
  · rfl
  · rfl

theorem takeAll_cons (c : Command) (s : State) (g : Given) (gs : List Given) :
    takeAll c s (g :: gs) = take c s g >>= fun t => takeAll c t gs := rfl

theorem settle_of_none (h : s.pending = none) : s.settle = (s, none) := by
  rw [settle, h]

/-- Once the last option has been settled, the end of the words is as before. -/
theorem finish_eq (hs : ∀ t, orHalt c s.settle = .ok t → t.pending = none) :
    s.finish c = orHalt c s.settle >>= fun t => t.finish c := by
  -- to settle twice is to settle once, as nothing is pending then
  cases hsettle : orHalt c s.settle with
  | error h => simp only [finish, hsettle, bind, Except.bind]
  | ok t =>
    have ht : orHalt c t.settle = .ok t := by rw [settle_of_none (hs t hsettle)]; rfl
    simp only [finish, hsettle, ht, bind, Except.bind]

/-- What is assigned leaves nothing new pending. -/
theorem pending_of_assign {o : Opt} {value : Option Bytes}
    (h : orHalt c (s.assign o value) = .ok t) : t.pending = s.pending := by
  -- an option without its value is refused, and a value may be as well
  cases value with
  | none => exact absurd h (by simp [assign, orHalt])
  | some value =>
    rw [assign] at h
    split at h
    · exact absurd h (by simp [orHalt])
    · cases hx : o.setting value with
      | error fault => exact absurd h (by simp [hx, orHalt])
      | ok x =>
        simp only [hx, orHalt] at h
        rw [← Except.ok.inj h]

/-- **Once settled, nothing is pending.** -/
theorem pending_of_settle (h : orHalt c s.settle = .ok t) : t.pending = none := by
  unfold settle at h
  split at h
  · next hnone =>
    rw [← Except.ok.inj h]
    exact hnone
  · exact pending_of_assign h

/-! ### The words of some options -/

/-- An option with its value in the word is taken once the one before it is settled. -/
theorem step_joined (hg : g.opt ∈ c.options) :
    s.step c (utf8 ("--" ++ g.opt.long ++ "=" ++ g.value)) =
      orHalt c s.settle >>= fun t => take c t g := by
  simp only [step, wordOf_joined, named?_option hg]
  rfl

/-- An option alone has its value pending. -/
theorem step_option (hg : g.opt ∈ c.options) :
    s.step c (utf8 ("--" ++ g.opt.long)) =
      orHalt c s.settle >>= fun t => .ok { t with pending := some (g.opt, none) } := by
  simp only [step, wordOf_option, named?_option hg]
  rfl

/-- The value is kept for the option that waits for it. -/
theorem step_value (hdash : g.value.toList.head? ≠ some '-') :
    step c { s with pending := some (g.opt, none) } (utf8 g.value) =
      .ok { s with pending := some (g.opt, some (utf8 g.value)) } := by
  simp only [step, wordOf_value hdash]

/-- A word that is no pair of dashes is read by one step. -/
theorem readFrom_cons {word : Bytes} {rest : List Bytes} (h : Word.of word ≠ .dashes) :
    s.readFrom c (word :: rest) = s.step c word >>= fun t => t.readFrom c rest := by
  rw [readFrom.eq_def]
  simp only [if_neg h]
  cases s.step c word <;> rfl

/-- **The words of an option, read between two options.** The option before it is settled, and this
one either takes its value at once or has it pending. -/
theorem readFrom_words (rest : List Bytes) (hg : g.opt ∈ c.options) :
    ∃ next : State → Except Halt State,
      (∀ t, t.pending = none → next t = take c t g ∨
        next t = .ok { t with pending := some (g.opt, some (utf8 g.value)) }) ∧
      s.readFrom c (g.words ++ rest) =
        orHalt c s.settle >>= fun t => next t >>= fun u => u.readFrom c rest := by
  -- one word or two; in both forms the next word settles what is pending
  cases hjoined : g.isJoined with
  | true =>
    refine ⟨fun t => take c t g, fun t _ => .inl rfl, ?_⟩
    have hword : Word.of (utf8 ("--" ++ g.opt.long ++ "=" ++ g.value)) ≠ .dashes := by
      rw [wordOf_joined]
      simp
    rw [Given.words, if_pos hjoined, List.singleton_append, readFrom_cons hword, step_joined hg]
    cases orHalt c s.settle <;> rfl
  | false =>
    refine ⟨fun t => .ok { t with pending := some (g.opt, some (utf8 g.value)) },
      fun t _ => .inr rfl, ?_⟩
    have hdash := g.undashed hjoined
    have hoption : Word.of (utf8 ("--" ++ g.opt.long)) ≠ .dashes := by
      rw [wordOf_option]
      simp
    have hvalue : Word.of (utf8 g.value) ≠ .dashes := by
      rw [wordOf_value hdash]
      simp
    rw [Given.words, if_neg (by simp [hjoined]), List.cons_append, List.singleton_append,
      readFrom_cons hoption, step_option hg]
    cases orHalt c s.settle with
    | error h => rfl
    | ok t =>
      -- behind the name the option waits, and its value is the next word
      change readFrom c { t with pending := some (g.opt, none) } (utf8 g.value :: rest) = _
      rw [readFrom_cons hvalue, step_value hdash]
      rfl

/-- **The words of some options are one assignment after another.** A fault of an option shows when
the next word comes, or the end; it is the first one in the order of the words all the same. -/
theorem readFrom_given (hgs : ∀ g ∈ gs, g.opt ∈ c.options) :
    s.readFrom c (gs.flatMap Given.words) =
      orHalt c s.settle >>= fun t => takeAll c t gs >>= fun u => u.finish c := by
  -- by induction on the options; what has to be settled is the state in front of them
  induction gs generalizing s with
  | nil =>
    rw [List.flatMap_nil, readFrom, finish_eq fun t => pending_of_settle]
    rfl
  | cons g gs ih =>
    have hg := hgs g List.mem_cons_self
    obtain ⟨next, hnext, hread⟩ := readFrom_words (s := s) (gs.flatMap Given.words) hg
    rw [List.flatMap_cons, hread]
    cases hsettle : orHalt c s.settle with
    | error h => rfl
    | ok t =>
      have hnone := pending_of_settle hsettle
      have ihgs (v : State) := ih (s := v) fun g hg => hgs g (List.mem_cons_of_mem _ hg)
      change (next t >>= fun u => u.readFrom c (gs.flatMap Given.words)) =
        takeAll c t (g :: gs) >>= fun u => u.finish c
      rw [takeAll_cons]
      rcases hnext t hnone with hnow | hlater
      · -- the value was in the same word
        rw [hnow]
        cases htake : take c t g with
        | error h => rfl
        | ok v =>
          have hv : v.pending = none := (pending_of_assign htake).trans hnone
          change v.readFrom c (gs.flatMap Given.words) = _
          rw [ihgs v, settle_of_none hv]
          rfl
      · -- the value is pending, and settling it is taking it
        have hsame : orHalt c (settle { t with pending := some (g.opt, some (utf8 g.value)) }) =
            take c t g := by
          have hback : ({ t with pending := none } : State) = t := by rw [← hnone]
          simp only [settle, hback]
          rfl
        rw [hlater]
        change readFrom c { t with pending := some (g.opt, some (utf8 g.value)) } _ = _
        rw [ihgs, hsame]
        cases take c t g <;> rfl

/-! ### What is there after some options -/

/-- **What is known once some options have been taken.** -/
structure Taken (s : State) (gs : List Given) (t : State) : Prop where
  pending : t.pending = s.pending
  settings : t.settings = s.settings ++ gs.map Given.setting
  used : ∀ o, o ∈ t.used ↔ o ∈ s.used ∨ 0 < timesGiven gs o
  once : ∀ o, o ≠ .cert → timesGiven gs o ≤ if o ∈ s.used then 0 else 1

theorem taken_of_takeAll (h : takeAll c s gs = .ok t) : Taken s gs t := by
  induction gs generalizing s with
  | nil =>
    obtain rfl := Except.ok.inj h
    exact ⟨rfl, by simp, by simp [timesGiven], by simp [timesGiven]⟩
  -- the first option is put behind those that are there, and the rest behind it
  | cons g gs ih =>
    rw [takeAll_cons, take_eq] at h
    split at h
    · exact absurd h (by simp [bind, Except.bind])
    · next hfree =>
      have hrest := ih h
      refine ⟨hrest.pending, by simp [hrest.settings], fun o => ?_, fun o ho => ?_⟩
      · -- an option is used if it was used before, or is the first one, or is among the rest
        rw [hrest.used, timesGiven_cons]
        grind
      · have honce := hrest.once o ho
        rw [timesGiven_cons]
        grind

/-- **Options are refused for one that is given again.** -/
theorem takeAll_eq_error {halt : Halt} (h : takeAll c s gs = .error halt) :
    ∃ o, halt = haltRepeated c o ∧ o ≠ .cert ∧ (if o ∈ s.used then 1 else 2) ≤ timesGiven gs o := by
  induction gs generalizing s with
  | nil => exact absurd h (by simp [takeAll, pure, Except.pure])
  | cons g gs ih =>
    rw [takeAll_cons, take_eq] at h
    split at h
    · -- the first option is the one that is given again
      next hagain =>
      refine ⟨g.opt, (Except.error.inj h).symm, hagain.2, ?_⟩
      rw [if_pos hagain.1, timesGiven_cons, if_pos rfl]
      omega
    · -- or it is one behind the first, which counts as used from then on
      obtain ⟨o, hhalt, ho, htimes⟩ := ih h
      refine ⟨o, hhalt, ho, ?_⟩
      rw [timesGiven_cons]
      grind

/-! ### The end of the words -/

/-- **Options that do not exclude each other make arguments.** -/
theorem finish_eq_ok (hnone : s.pending = none)
    (hfree : ∀ o ∈ s.used, ∀ p ∈ s.used, ¬o.excludes p = true) :
    s.finish c = .ok (.ofSettings c s.settings) := by
  -- the search for a pair that excludes each other finds none
  have hclash : (s.used.findSome? fun o => (s.used.find? o.excludes).map fun p => (o, p)) =
      none := by
    rw [List.findSome?_eq_none_iff]
    intro o ho
    rw [List.find?_eq_none.mpr (hfree o ho), Option.map_none]
  have hsettle : orHalt c s.settle = .ok s := by rw [settle_of_none hnone]; rfl
  simp only [finish, hsettle, bind, Except.bind, hclash]

/-- **Two options that exclude each other are refused**, those two or others. -/
theorem finish_eq_error {o p : Opt} (hnone : s.pending = none) (ho : o ∈ s.used)
    (hp : p ∈ s.used) (hexcludes : o.excludes p = true) :
    ∃ first ∈ s.used, ∃ second ∈ s.used, first.excludes second = true ∧ ∃ m : Misuse,
      s.finish c = .error (.misuse m) ∧ m.fault = .conflict first second := by
  have hsettle : orHalt c s.settle = .ok s := by rw [settle_of_none hnone]; rfl
  cases hclash : s.used.findSome? fun o => (s.used.find? o.excludes).map fun p => (o, p) with
  | none =>
    -- the two options at hand are such a pair
    rw [List.findSome?_eq_none_iff] at hclash
    have hfind := Option.map_eq_none_iff.mp (hclash o ho)
    exact absurd hexcludes (List.find?_eq_none.mp hfind p hp)
  | some pair =>
    obtain ⟨first, hfirst, hpair⟩ := List.exists_of_findSome?_eq_some hclash
    obtain ⟨second, hfind, rfl⟩ := Option.map_eq_some_iff.mp hpair
    have hsecond := List.mem_of_find?_eq_some hfind
    refine ⟨first, hfirst, second, hsecond, List.find?_some hfind, ?_⟩
    simp only [finish, hsettle, bind, Except.bind, hclash]
    exact ⟨_, rfl, rfl⟩

end State

/-! ### The arguments that settings make -/

variable {c : Command} {g : Given} {gs hs : List Given}

theorem timesGiven_pos (hmem : g ∈ gs) : 0 < timesGiven gs g.opt :=
  List.countP_pos_iff.mpr ⟨g, hmem, by simp⟩

section Field

variable {α : Type} {o : Opt} {make : String → α} {usual x y : α} {pick : Setting → Option α}

/-- **A field is what its option says** if the settings of that option are all that is looked up. -/
theorem fieldSays_findSome?
    (hpick : ∀ g : Given, pick g.setting = if g.opt = o then some (make g.value) else none)
    (honce : timesGiven gs o ≤ 1) :
    FieldSays gs o (fun value => some (make value)) none
      ((gs.map Given.setting).findSome? pick) := by
  induction gs with
  | nil => exact ⟨by simp, fun _ => rfl⟩
  | cons first gs ih =>
    rw [timesGiven_cons] at honce
    rw [List.map_cons, List.findSome?_cons, hpick first]
    -- is the first option the one that is looked up?
    by_cases hfirst : first.opt = o
    · rw [if_pos hfirst] at honce ⊢
      -- the option is not given again behind its first place
      refine ⟨fun g hmem hopt => ?_, fun hnone => ?_⟩
      · rcases List.mem_cons.mp hmem with rfl | hmem
        · rfl
        · have hpos := timesGiven_pos hmem
          rw [hopt] at hpos
          omega
      · rw [timesGiven_cons, if_pos hfirst] at hnone
        omega
    · rw [if_neg hfirst] at honce ⊢
      have hrest := ih honce
      refine ⟨fun g hmem hopt => ?_, fun hnone => ?_⟩
      · rcases List.mem_cons.mp hmem with rfl | hmem
        · exact absurd hopt hfirst
        · exact hrest.given g hmem hopt
      · rw [timesGiven_cons, if_neg hfirst] at hnone
        exact hrest.absent hnone

/-- A field with something usual says it where its option is not given. -/
theorem FieldSays.getD {z : Option α}
    (h : FieldSays gs o (fun value => some (make value)) none z) :
    FieldSays gs o make usual (z.getD usual) where
  given g hmem hopt := by rw [h.given g hmem hopt, Option.getD_some]
  absent hnone := by rw [h.absent hnone, Option.getD_none]

/-- Options leave no choice of a field. -/
theorem FieldSays.unique (hx : FieldSays gs o make usual x) (hy : FieldSays gs o make usual y) :
    x = y := by
  -- either the option is given, and its value counts, or what is usual counts for both
  by_cases hgiven : ∃ g ∈ gs, g.opt = o
  · obtain ⟨g, hmem, hopt⟩ := hgiven
    rw [hx.given g hmem hopt, hy.given g hmem hopt]
  · have hnone : timesGiven gs o = 0 := by
      rw [timesGiven, List.countP_eq_zero]
      intro g hmem
      simpa using fun hopt => hgiven ⟨g, hmem, hopt⟩
    rw [hx.absent hnone, hy.absent hnone]

/-- **A field does not depend on the order of the options**, nor on how they are spelled. -/
theorem FieldSays.perm (hx : FieldSays hs o make usual x)
    (hperm : (hs.map fun g => (g.opt, g.value)).Perm (gs.map fun g => (g.opt, g.value))) :
    FieldSays gs o make usual x := by
  constructor
  · -- every option of one order is in the other, with the same value
    intro g hmem hopt
    obtain ⟨h, hin, heq⟩ := List.mem_map.mp (hperm.mem_iff.mpr (List.mem_map_of_mem hmem))
    obtain ⟨hsame, hvalue⟩ := Prod.mk.inj heq
    rw [← hvalue]
    exact hx.given h hin (hsame.trans hopt)
  · intro hnone
    refine hx.absent ?_
    have hcount := hperm.countP_eq fun p => p.1 = o
    rw [List.countP_map, List.countP_map] at hcount
    exact hcount.trans hnone

end Field

/-- The certificates are the settings of one option, in their order. -/
theorem filterMap_certs (gs : List Given) :
    ((gs.map Given.setting).filterMap fun | .cert path => some path | _ => none) =
      (gs.filter fun g => g.opt = .cert).map fun g => Path.ofText g.value := by
  induction gs with
  | nil => rfl
  | cons g gs ih =>
    rw [List.map_cons, List.filterMap_cons, List.filter_cons, ih]
    unfold Given.setting
    cases g.opt <;> rfl

/-- **The arguments that the settings of options make say what the options say.** -/
theorem says_ofSettings (h : Compatible gs) (c : Command) :
    Says gs c (.ofSettings c (gs.map Given.setting)) := by
  have hpayload : FieldSays gs .payload some none (payloadOf? (gs.map Given.setting)) :=
    fieldSays_findSome? (fun g => by unfold Given.setting; cases g.opt <;> rfl)
      (h.once .payload (by decide))
  -- the fields of each command are looked up one by one, each among the settings of its option
  cases c with
  | unencoded =>
    refine .unencoded hpayload ?_ ?_
    · exact fieldSays_findSome? (fun g => by unfold Given.setting; cases g.opt <;> rfl)
        (h.once .secret (by decide))
    · exact fieldSays_findSome? (fun g => by unfold Given.setting; cases g.opt <;> rfl)
        (h.once .secretEnv (by decide))
  | chained =>
    refine .chained hpayload (.getD ?_) (.getD ?_) (filterMap_certs gs)
    · exact fieldSays_findSome? (fun g => by unfold Given.setting; cases g.opt <;> rfl)
        (h.once .certDir (by decide))
    · exact fieldSays_findSome? (fun g => by unfold Given.setting; cases g.opt <;> rfl)
        (h.once .key (by decide))

/-- **Options say one thing only**, wherever they stand. -/
theorem Says.unique {a b : Arguments} (ha : Says gs c a) (hb : Says hs c b)
    (h : Reordered gs hs) : b = a := by
  -- field by field: what each option says does not depend on the order
  cases ha with
  | @unencoded a hpayload hsecret henv =>
    cases hb with
    | @unencoded b hpayload' hsecret' henv' =>
      have hp := (hpayload'.perm h.values).unique hpayload
      have hs := (hsecret'.perm h.values).unique hsecret
      have he := (henv'.perm h.values).unique henv
      obtain ⟨payload, secret, secretEnv⟩ := a
      obtain ⟨payload', secret', secretEnv'⟩ := b
      simp_all
  | @chained a hpayload hdir hkey hcerts =>
    cases hb with
    | @chained b hpayload' hdir' hkey' hcerts' =>
      have hp := (hpayload'.perm h.values).unique hpayload
      have hd := (hdir'.perm h.values).unique hdir
      have hk := (hkey'.perm h.values).unique hkey
      -- only the certificates have an order, which is the same in both
      have hc : b.certs = a.certs := by
        have hmap := congrArg (List.map Path.ofText) h.certs
        rw [List.map_map, List.map_map] at hmap
        exact hcerts'.trans (hmap.trans hcerts.symm)
      obtain ⟨payload, certDir, key, certs⟩ := a
      obtain ⟨payload', certDir', key', certs'⟩ := b
      simp_all

/-- In another order every option is given as often. -/
theorem Reordered.timesGiven_eq (h : Reordered gs hs) (o : Opt) :
    timesGiven hs o = timesGiven gs o := by
  have hcount := h.values.countP_eq fun p => p.1 = o
  rw [List.countP_map, List.countP_map] at hcount
  exact hcount

/-- Options that may be given together may be so in any order. -/
theorem Reordered.compatible (h : Reordered gs hs) (hgs : Compatible gs) : Compatible hs := by
  constructor
  · intro o ho
    rw [h.timesGiven_eq]
    exact hgs.once o ho
  · rw [h.timesGiven_eq, h.timesGiven_eq]
    exact hgs.oneSecret

/-- Options in another order are options of the same command. -/
theorem Reordered.mem_options (h : Reordered gs hs) (hgs : ∀ g ∈ gs, g.opt ∈ c.options) :
    ∀ g ∈ hs, g.opt ∈ c.options := by
  intro g hmem
  obtain ⟨first, hin, heq⟩ := List.mem_map.mp (h.values.mem_iff.mp (List.mem_map_of_mem hmem))
  rw [← (Prod.mk.inj heq).1]
  exact hgs first hin

/-! ### Command lines -/

/-- The words after a command are its options. -/
theorem read_command (hgs : ∀ g ∈ gs, g.opt ∈ c.options) :
    read (utf8 c.name :: gs.flatMap Given.words) =
      State.takeAll c {} gs >>= fun t => t.finish c := by
  have hopened : Scope.program.opened? (utf8 c.name) = some (.command c) := by
    cases c <;> decide
  rw [read, hopened]
  exact State.readFrom_given hgs

/-- Options of a command line that is read are given together rightly. -/
theorem compatible_of_taken {t : State} (h : State.Taken {} gs t)
    (hsecret : ¬(.secret ∈ t.used ∧ .secretEnv ∈ t.used)) : Compatible gs := by
  refine ⟨fun o ho => by simpa using h.once o ho, fun hboth => hsecret ?_⟩
  exact ⟨(h.used _).mpr (.inr hboth.1), (h.used _).mpr (.inr hboth.2)⟩

/-- **There is one pair of options that exclude each other.** -/
theorem excludes_iff {o p : Opt} :
    o.excludes p = true ↔ (o = .secret ∧ p = .secretEnv) ∨ (o = .secretEnv ∧ p = .secret) := by
  cases o <;> cases p <;> simp [Opt.excludes]

/-- **A command line is read, or refused for a clash of its options.** -/
theorem read_cases (hgs : ∀ g ∈ gs, g.opt ∈ c.options) :
    (Compatible gs ∧
      read (utf8 c.name :: gs.flatMap Given.words) =
        .ok (.ofSettings c (gs.map Given.setting))) ∨
    (¬Compatible gs ∧ ∃ m : Misuse,
      read (utf8 c.name :: gs.flatMap Given.words) = .error (.misuse m) ∧ m.fault.IsClash gs) := by
  rw [read_command hgs]
  -- the options are taken one by one, and then their end is reached
  cases htake : State.takeAll c {} gs with
  | error halt =>
    obtain ⟨o, rfl, ho, htimes⟩ := State.takeAll_eq_error htake
    have htwice : 2 ≤ timesGiven gs o := by simpa using htimes
    refine .inr ⟨fun h => ?_, _, rfl, .repeated htwice⟩
    have honce := h.once o ho
    omega
  | ok t =>
    have htaken := State.taken_of_takeAll htake
    have hsettings : t.settings = gs.map Given.setting := by simpa using htaken.settings
    have hused (o : Opt) : o ∈ t.used ↔ 0 < timesGiven gs o := by simpa using htaken.used o
    -- all are taken: what is left is whether both sources of the secret are given
    by_cases hsecret : .secret ∈ t.used ∧ .secretEnv ∈ t.used
    · obtain ⟨o, ho, p, hp, hexcludes, m, hfinish, hfault⟩ :=
        State.finish_eq_error (c := c) htaken.pending hsecret.1 hsecret.2 rfl
      refine .inr ⟨fun h => ?_, m, hfinish, ?_⟩
      · exact h.oneSecret ⟨(hused _).mp hsecret.1, (hused _).mp hsecret.2⟩
      · rw [hfault]
        exact .conflict ((hused o).mp ho) ((hused p).mp hp) hexcludes
    · refine .inl ⟨compatible_of_taken htaken hsecret, ?_⟩
      rw [← hsettings]
      refine State.finish_eq_ok htaken.pending fun o ho p hp hexcludes => hsecret ?_
      rcases excludes_iff.mp hexcludes with ⟨rfl, rfl⟩ | ⟨rfl, rfl⟩
      · exact ⟨ho, hp⟩
      · exact ⟨hp, ho⟩

/-- **Options compose in any order.** A command line of options is read exactly if they may be given
together. The arguments then say what the options say, and they are the same for the options in any
other order that keeps the order of the certificates, however each of them is spelled. A command
line that is not read is refused for an option that is given twice, or for two that exclude each
other. -/
theorem read_given (hgs : ∀ g ∈ gs, g.opt ∈ c.options) :
    ((∃ a, read (utf8 c.name :: gs.flatMap Given.words) = .ok a) ↔ Compatible gs) ∧
    (∀ a, read (utf8 c.name :: gs.flatMap Given.words) = .ok a → Says gs c a ∧
      ∀ hs, Reordered gs hs → read (utf8 c.name :: hs.flatMap Given.words) = .ok a) ∧
    (¬Compatible gs → ∃ m : Misuse,
      read (utf8 c.name :: gs.flatMap Given.words) = .error (.misuse m) ∧ m.fault.IsClash gs) := by
  rcases read_cases hgs with ⟨hcompatible, hread⟩ | ⟨hclash, m, hread, hfault⟩
  · have htold := says_ofSettings hcompatible c
    refine ⟨⟨fun _ => hcompatible, fun _ => ⟨_, hread⟩⟩, fun a ha => ?_,
      fun h => absurd hcompatible h⟩
    -- the arguments are those of the settings, so they say what the options say
    obtain rfl := Except.ok.inj (hread.symm.trans ha)
    refine ⟨htold, fun hs hother => ?_⟩
    -- in another order the same is read, as no two arguments say the same
    have hotherCompatible := hother.compatible hcompatible
    rcases read_cases (hother.mem_options hgs) with ⟨-, hreadOther⟩ | ⟨hnot, -⟩
    · rw [hreadOther, htold.unique (says_ofSettings hotherCompatible c) hother]
    · exact absurd hotherCompatible hnot
  · refine ⟨⟨fun ⟨a, ha⟩ => ?_, fun h => absurd h hclash⟩, fun a ha => ?_,
      fun _ => ⟨m, hread, hfault⟩⟩
    · exact absurd (ha.symm.trans hread) (by simp)
    · exact absurd (ha.symm.trans hread) (by simp)

/-- Two certificates with another option between them, spelled in both ways. -/
def twoCertificates : List Given :=
  [{ opt := .cert, value := "a=b", isJoined := true },
    { opt := .key, value := "k", isJoined := false },
    { opt := .cert, value := "c", isJoined := false }]

theorem read_given_twoCertificates :
    (∀ g ∈ twoCertificates, g.opt ∈ Command.chained.options) ∧ Compatible twoCertificates ∧
      ∃ a, read (utf8 Command.chained.name :: twoCertificates.flatMap Given.words) = .ok a ∧
        Says twoCertificates .chained a ∧ ∀ hs, Reordered twoCertificates hs →
          read (utf8 Command.chained.name :: hs.flatMap Given.words) = .ok a := by
  have hgs : ∀ g ∈ twoCertificates, g.opt ∈ Command.chained.options := by decide
  have hcompatible : Compatible twoCertificates := by
    refine ⟨fun o ho => ?_, by decide⟩
    cases o <;> first | exact absurd rfl ho | decide
  obtain ⟨hread, htold, -⟩ := read_given hgs
  obtain ⟨a, ha⟩ := hread.mpr hcompatible
  exact ⟨hgs, hcompatible, a, ha, htold a ha⟩

end TokenForge.Cli
