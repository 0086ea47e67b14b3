import Mathlib.Data.List.Basic
import Phrasebook.Artifact.Cache
import Phrasebook.Proofs.Dictionary

/-!
Calls of `getOrCompile` that share one cache. Each takes its three steps, and between two of them
the others may take theirs. Whatever the order of the steps, the calls for one locale agree.
-/

namespace Phrasebook.Artifact.Cache

variable {ε : Type}

inductive Stage (ε : Type) where
  | looking
  | loading
  | storing (own : Compiled)
  | hit (kept : Compiled)
  | stored (own kept : Compiled)
  | failed (e : CacheError ε)

namespace Stage

def result? : Stage ε → Option (Except (CacheError ε) Compiled)
  | hit kept | stored _ kept => some (.ok kept)
  | failed e => some (.error e)
  | looking | loading | storing _ => none

def own? : Stage ε → Option Compiled
  | storing own | stored own _ => some own
  | looking | loading | hit _ | failed _ => none

end Stage

structure Call (ε : Type) where
  locale : String
  load : Unit → Except ε Catalog
  stage : Stage ε

def Call.Returns (call : Call ε) (script : Compiled) : Prop :=
  call.stage.result? = some (.ok script)

/-- The next step of a call. One that has ended stays as it is. What is loaded is compiled in the
same step, for neither touches what the calls share but for the number. -/
def Call.advance (options : Options) (cache : Cache) (call : Call ε) : Stage ε × Cache :=
  match call.stage with
  | .looking =>
    match cache.get? call.locale with
    | some kept => (.hit kept, cache)
    | none => (.loading, cache)
  | .loading =>
    match compileLoaded options cache.next (call.load ()) with
    | .error e => (.failed e, cache)
    | .ok own => (.storing own, { cache with next := cache.next + 1 })
  | .storing own =>
    let (kept, after) := cache.putIfAbsent call.locale own
    (.stored own kept, after)
  | ended => (ended, cache)

structure World (ε : Type) where
  cache : Cache
  calls : List (Call ε)

inductive Action (ε : Type) where
  | start (locale : String) (load : Unit → Except ε Catalog)
  | proceed (caller : Nat)
  | invalidate (locale : String)
  | clear

inductive Action.Drops : Action ε → String → Prop
  | invalidate (locale : String) : Drops (.invalidate locale) locale
  | clear (locale : String) : Drops .clear locale

namespace World

def act (options : Options) (world : World ε) : Action ε → World ε
  | .start locale load => { world with calls := world.calls ++ [⟨locale, load, .looking⟩] }
  | .proceed caller =>
    match world.calls[caller]? with
    | none => world
    | some call =>
      let (stage, cache) := call.advance options world.cache
      ⟨cache, world.calls.set caller { call with stage }⟩
  | .invalidate locale => { world with cache := (world.cache.invalidate locale).2 }
  | .clear => { world with cache := world.cache.clear }

def run (options : Options) (world : World ε) (actions : List (Action ε)) : World ε :=
  actions.foldl (act options) world

end World

inductive Advances (options : Options) (cache : Cache) (call : Call ε) : Stage ε → Cache → Prop
  | hit {kept} : call.stage = .looking → cache.get? call.locale = some kept →
      Advances options cache call (.hit kept) cache
  | miss : call.stage = .looking → cache.get? call.locale = none →
      Advances options cache call .loading cache
  | failed {e} : call.stage = .loading →
      compileLoaded options cache.next (call.load ()) = .error e →
      Advances options cache call (.failed e) cache
  | compiled {catalog body} : call.stage = .loading → call.load () = .ok catalog →
      compile options catalog = .ok body →
      Advances options cache call (.storing ⟨cache.next, body⟩)
        { cache with next := cache.next + 1 }
  | late {own kept} : call.stage = .storing own → cache.get? call.locale = some kept →
      Advances options cache call (.stored own kept) cache
  | kept {own} : call.stage = .storing own → cache.get? call.locale = none →
      Advances options cache call (.stored own own)
        { cache with scripts := cache.scripts.insert call.locale own }
  | ended {result} : call.stage.result? = some result →
      Advances options cache call call.stage cache

theorem advances_advance (options : Options) (cache : Cache) (call : Call ε) :
    Advances options cache call (call.advance options cache).1 (call.advance options cache).2 := by
  obtain ⟨locale, load, stage⟩ := call
  cases stage with
  | looking =>
    simp only [Call.advance]
    cases kept : cache.get? locale with
    | some script => exact .hit rfl kept
    | none => exact .miss rfl kept
  | loading =>
    simp only [Call.advance]
    cases loaded : load () with
    | error e => exact .failed rfl (by simp only [loaded]; rfl)
    | ok catalog =>
      cases compiled : compile options catalog with
      | error e =>
        simp only [compileLoaded, compiled]
        exact .failed rfl (by simp only [loaded, compileLoaded, compiled])
      | ok body =>
        simp only [compileLoaded, compiled]
        exact .compiled rfl loaded compiled
  | storing own =>
    simp only [Call.advance, putIfAbsent]
    cases kept : cache.get? locale with
    | some script => exact .late rfl kept
    | none => exact .kept rfl kept
  | hit kept => exact .ended rfl
  | stored own kept => exact .ended rfl
  | failed e => exact .ended rfl

inductive Moves (options : Options) (world : World ε) : Action ε → World ε → Prop
  | start {locale load} : Moves options world (.start locale load)
      { world with calls := world.calls ++ [⟨locale, load, .looking⟩] }
  | absent {caller} : Moves options world (.proceed caller) world
  | proceed {caller call stage cache} : world.calls[caller]? = some call →
      Advances options world.cache call stage cache →
      Moves options world (.proceed caller) ⟨cache, world.calls.set caller { call with stage }⟩
  | invalidate {locale} : Moves options world (.invalidate locale)
      { world with cache := (world.cache.invalidate locale).2 }
  | clear : Moves options world .clear { world with cache := world.cache.clear }

theorem moves_act (options : Options) (world : World ε) (action : Action ε) :
    Moves options world action (world.act options action) := by
  cases action with
  | start locale load => exact .start
  | invalidate locale => exact .invalidate
  | clear => exact .clear
  | proceed caller =>
    rw [World.act]
    cases found : world.calls[caller]? with
    | none => exact .absent
    | some call => exact .proceed found (advances_advance options world.cache call)

theorem World.run_induction {options : Options} {holds : World ε → Prop} {world : World ε}
    {actions : List (Action ε)} (begun : holds world)
    (step : ∀ action ∈ actions, ∀ {world after}, holds world → Moves options world action after →
      holds after) : holds (world.run options actions) :=
  List.foldlRecOn actions _ begun fun before held action member =>
    step action member held (moves_act options before action)

theorem World.act_concat (options : Options) (cache : Cache) (calls : List (Call ε))
    (call : Call ε) :
    World.act options ⟨cache, calls ++ [call]⟩ (.proceed calls.length) =
      ⟨(call.advance options cache).2,
        calls ++ [{ call with stage := (call.advance options cache).1 }]⟩ := by
  simp only [World.act, List.getElem?_concat_length]
  rw [List.set_append_right _ _ (Nat.le_refl _), Nat.sub_self, List.set_cons_zero]

/-- The three steps of a call, taken one right after another, are `getOrCompile`. -/
theorem World.run_alone (options : Options) (cache : Cache) (calls : List (Call ε))
    (locale : String) (load : Unit → Except ε Catalog) :
    let (outcome, after) := cache.getOrCompile options locale load
    ∃ stage, stage.result? = some outcome.result ∧
      World.run options ⟨cache, calls⟩ [.start locale load, .proceed calls.length,
        .proceed calls.length, .proceed calls.length] =
      ⟨after, calls ++ [⟨locale, load, stage⟩]⟩ := by
  have started : World.act options ⟨cache, calls⟩ (.start locale load) =
      ⟨cache, calls ++ [⟨locale, load, .looking⟩]⟩ := rfl
  simp only [World.run, List.foldl_cons, List.foldl_nil, started, World.act_concat]
  cases kept : cache.get? locale with
  | some script =>
    simp only [getOrCompile, Call.advance, kept]
    exact ⟨.hit script, rfl, rfl⟩
  | none =>
    cases compiled : compileLoaded options cache.next (load ()) with
    | error e =>
      simp only [getOrCompile, Call.advance, kept, compiled]
      exact ⟨.failed e, rfl, rfl⟩
    | ok script =>
      have absent : Cache.get? { cache with next := cache.next + 1 } locale = none := kept
      simp only [getOrCompile, Call.advance, kept, compiled, putIfAbsent, absent]
      exact ⟨.stored script script, rfl, rfl⟩

variable {options : Options} {cache next : Cache} {call : Call ε} {stage : Stage ε}
  {world after : World ε} {action : Action ε}

theorem Advances.next_le (advances : Advances options cache call stage next) :
    cache.next ≤ next.next := by
  cases advances with
  | compiled => exact Nat.le_succ _
  | _ => exact Nat.le_refl _

theorem Advances.get_of_kept (advances : Advances options cache call stage next) {locale : String}
    {script : Compiled} (kept : cache.get? locale = some script) :
    next.get? locale = some script := by
  cases advances with
  | @kept own _ absent =>
    have other : locale ≠ call.locale := by
      rintro rfl
      cases kept.symm.trans absent
    exact (Dictionary.find_insert_of_ne _ _ other).trans kept
  | _ => exact kept

theorem Advances.get_eq_some (advances : Advances options cache call stage next) {locale : String}
    {script : Compiled} (found : next.get? locale = some script) :
    cache.get? locale = some script ∨
      call.locale = locale ∧ call.stage = .storing script ∧ stage = .stored script script := by
  cases advances with
  | @kept own storing _ =>
    by_cases same : locale = call.locale
    · subst same
      obtain rfl : own = script := Option.some.inj ((Dictionary.find_insert_self _ _ _).symm.trans found)
      exact .inr ⟨rfl, storing, rfl⟩
    · exact .inl ((Dictionary.find_insert_of_ne _ _ same).symm.trans found)
  | _ => exact .inl found

/-- A call that ends well has got the script that the cache then keeps for its locale. -/
theorem Advances.get_of_returns (advances : Advances options cache call stage next)
    (returned : ∀ script, call.Returns script → cache.get? call.locale = some script)
    {script : Compiled} (returns : stage.result? = some (.ok script)) :
    next.get? call.locale = some script := by
  cases advances with
  | hit _ found | late _ found =>
    cases returns
    exact found
  | kept =>
    cases returns
    exact Dictionary.find_insert_self _ _ _
  | miss | failed | compiled => cases returns
  | ended => exact returned script returns

/-- A script of a call's own was so before, or it has just been compiled under the next number. -/
theorem Advances.own_eq_some (advances : Advances options cache call stage next) {own : Compiled}
    (owns : stage.own? = some own) :
    call.stage.own? = some own ∨
      own.number = cache.next ∧ next.next = cache.next + 1 ∧
        ∃ catalog, call.load () = .ok catalog ∧ compile options catalog = .ok own.body := by
  cases advances with
  | hit | miss | failed => cases owns
  | compiled _ loaded compiled =>
    cases owns
    exact .inr ⟨rfl, rfl, _, loaded, compiled⟩
  | late storing | kept storing =>
    cases owns
    exact .inl (by rw [storing]; rfl)
  | ended => exact .inl owns

theorem Moves.get_of_kept (moves : Moves options world action after) {locale : String}
    (stays : ¬action.Drops locale) {script : Compiled}
    (kept : world.cache.get? locale = some script) : after.cache.get? locale = some script := by
  cases moves with
  | start | absent => exact kept
  | proceed _ advances => exact advances.get_of_kept kept
  | @invalidate other =>
    have apart : locale ≠ other := by
      rintro rfl
      exact stays (.invalidate locale)
    exact (Dictionary.find_erase_of_ne _ apart).trans kept
  | clear => exact (stays (.clear locale)).elim

theorem Moves.get_of_drops (moves : Moves options world action after) {locale : String}
    (drops : action.Drops locale) : after.cache.get? locale = none := by
  cases drops with
  | invalidate =>
    cases moves
    exact Dictionary.find_erase_self _ _
  | clear =>
    cases moves
    rfl

/-- A call of the world after an action was there before as it is, has just begun, or has just
taken a step. -/
theorem Moves.call_cases (moves : Moves options world action after) {caller : Nat} {call : Call ε}
    (found : after.calls[caller]? = some call) :
    world.calls[caller]? = some call ∨
      caller = world.calls.length ∧ call.stage = .looking ∨
      ∃ before, action = .proceed caller ∧ world.calls[caller]? = some before ∧
        before.locale = call.locale ∧ before.load = call.load ∧
        Advances options world.cache before call.stage after.cache := by
  cases moves with
  | absent | invalidate | clear => exact .inl found
  | @start locale load =>
    by_cases last : caller = world.calls.length
    · subst last
      rw [List.getElem?_concat_length] at found
      cases found
      exact .inr (.inl ⟨rfl, rfl⟩)
    · obtain ⟨inside, _⟩ := List.getElem?_eq_some_iff.1 found
      rw [List.length_append, List.length_singleton] at inside
      rw [List.getElem?_append_left (by omega)] at found
      exact .inl found
  | @proceed mover before stage cache own advances =>
    by_cases same : mover = caller
    · subst same
      obtain ⟨inside, _⟩ := List.getElem?_eq_some_iff.1 own
      rw [List.getElem?_set_self inside] at found
      cases found
      exact .inr (.inr ⟨before, rfl, own, rfl, rfl, advances⟩)
    · rw [List.getElem?_set_ne same] at found
      exact .inl found

structure Sound (options : Options) (world : World ε) : Prop where
  compiled : ∀ call ∈ world.calls, ∀ own, call.stage.own? = some own →
    ∃ catalog, call.load () = .ok catalog ∧ compile options catalog = .ok own.body
  numbered : ∀ call ∈ world.calls, ∀ own, call.stage.own? = some own →
    own.number < world.cache.next
  apart : ∀ (first second : Nat) call other own script, world.calls[first]? = some call →
    world.calls[second]? = some other → call.stage.own? = some own →
    other.stage.own? = some script → own.number = script.number → first = second

theorem Sound.empty (options : Options) (cache : Cache) :
    Sound options (⟨cache, []⟩ : World ε) := by
  constructor
  · intro call member
    cases member
  · intro call member
    cases member
  · intro first second call other own script found
    cases found

theorem Moves.own_eq_some (moves : Moves options world action after) {caller : Nat}
    {call : Call ε} (found : after.calls[caller]? = some call) {own : Compiled}
    (owns : call.stage.own? = some own) :
    (∃ before, world.calls[caller]? = some before ∧ before.load = call.load ∧
      before.stage.own? = some own) ∨
    action = .proceed caller ∧ own.number = world.cache.next ∧
      after.cache.next = world.cache.next + 1 ∧
      ∃ catalog, call.load () = .ok catalog ∧ compile options catalog = .ok own.body := by
  rcases moves.call_cases found with
    same | ⟨_, looking⟩ | ⟨before, proceeds, was, _, load, advances⟩
  · exact .inl ⟨call, same, rfl, owns⟩
  · rw [looking] at owns
    cases owns
  · rcases advances.own_eq_some owns with earlier | ⟨number, next, compiled⟩
    · exact .inl ⟨before, was, load, earlier⟩
    · rw [load] at compiled
      exact .inr ⟨proceeds, number, next, compiled⟩

theorem Moves.next_le (moves : Moves options world action after) :
    world.cache.next ≤ after.cache.next := by
  cases moves with
  | proceed _ advances => exact advances.next_le
  | _ => exact Nat.le_refl _

theorem Sound.step (sound : Sound options world) (moves : Moves options world action after) :
    Sound options after := by
  have older : ∀ {caller : Nat} {call : Call ε} {own : Compiled},
      world.calls[caller]? = some call → call.stage.own? = some own →
      own.number < world.cache.next := fun found owns =>
    sound.numbered _ (List.mem_of_getElem? found) _ owns
  constructor
  · intro call member own owns
    obtain ⟨caller, found⟩ := List.mem_iff_getElem?.1 member
    rcases moves.own_eq_some found owns with ⟨before, was, load, earlier⟩ | ⟨_, _, _, compiled⟩
    · rw [← load]
      exact sound.compiled before (List.mem_of_getElem? was) own earlier
    · exact compiled
  · intro call member own owns
    obtain ⟨caller, found⟩ := List.mem_iff_getElem?.1 member
    rcases moves.own_eq_some found owns with ⟨before, was, _, earlier⟩ | ⟨_, number, next, _⟩
    · exact (older was earlier).trans_le moves.next_le
    · omega
  · intro first second call other own script found found' owns owns' same
    rcases moves.own_eq_some found owns with ⟨_, was, _, earlier⟩ | ⟨proceeds, number, _⟩
    · rcases moves.own_eq_some found' owns' with ⟨_, was', _, earlier'⟩ | ⟨_, number', _⟩
      · exact sound.apart first second _ _ own script was was' earlier earlier' same
      · have bound := older was earlier
        omega
    · rcases moves.own_eq_some found' owns' with ⟨_, was', _, earlier'⟩ | ⟨proceeds', _⟩
      · have bound := older was' earlier'
        omega
      · exact Action.proceed.inj (proceeds.symm.trans proceeds')

theorem sound_run (options : Options) (start : Cache) (actions : List (Action ε)) :
    Sound options (World.run options ⟨start, []⟩ actions) :=
  World.run_induction (.empty options start) fun _ _ _ _ sound moves => sound.step moves

theorem Moves.found_of_ended (moves : Moves options world action after) {caller : Nat}
    {call : Call ε} (found : world.calls[caller]? = some call)
    {result : Except (CacheError ε) Compiled} (ended : call.stage.result? = some result) :
    after.calls[caller]? = some call := by
  cases moves with
  | absent | invalidate | clear => exact found
  | start =>
    obtain ⟨inside, _⟩ := List.getElem?_eq_some_iff.1 found
    exact (List.getElem?_append_left inside).trans found
  | @proceed mover before stage cache own advances =>
    by_cases same : mover = caller
    · subst same
      obtain ⟨inside, _⟩ := List.getElem?_eq_some_iff.1 own
      cases own.symm.trans found
      rw [List.getElem?_set_self inside]
      cases advances with
      | ended => rfl
      | hit before | miss before | failed before | compiled before | late before | kept before =>
        rw [before] at ended
        cases ended
    · exact (List.getElem?_set_ne same).trans found

/-- A script that is there for a locale was there before, or has just been stored by the call that
compiled it. -/
theorem Moves.get_eq_some (moves : Moves options world action after) {locale : String}
    {script : Compiled} (found : after.cache.get? locale = some script) :
    world.cache.get? locale = some script ∨
      ∃ (caller : Nat) (call : Call ε), world.calls[caller]? = some call ∧ call.locale = locale ∧
        call.stage = .storing script ∧
        after.calls[caller]? = some { call with stage := .stored script script } := by
  cases moves with
  | start | absent => exact .inl found
  | @proceed caller call stage cache own advances =>
    rcases advances.get_eq_some found with earlier | ⟨same, storing, rfl⟩
    · exact .inl earlier
    · obtain ⟨inside, _⟩ := List.getElem?_eq_some_iff.1 own
      exact .inr ⟨caller, call, own, same, storing, List.getElem?_set_self inside⟩
  | @invalidate other =>
    by_cases same : locale = other
    · subst same
      cases (Dictionary.find_erase_self _ _).symm.trans found
    · exact .inl ((Dictionary.find_erase_of_ne _ same).symm.trans found)
  | clear => cases found

structure Agreed (start : Cache) (world : World ε) : Prop where
  returned : ∀ call ∈ world.calls, ∀ script, call.Returns script →
    world.cache.get? call.locale = some script
  stored : ∀ locale script, world.cache.get? locale = some script →
    start.get? locale = some script ∨
      ∃ call ∈ world.calls, call.locale = locale ∧ call.stage = .stored script script

theorem Agreed.empty (start : Cache) : Agreed start (⟨start, []⟩ : World ε) := by
  constructor
  · intro call member
    cases member
  · intro locale script found
    exact .inl found

theorem Agreed.step {start : Cache} (agreed : Agreed start world)
    (moves : Moves options world action after) (stays : ∀ locale, ¬action.Drops locale) :
    Agreed start after := by
  constructor
  · intro call member script returns
    obtain ⟨caller, found⟩ := List.mem_iff_getElem?.1 member
    rcases moves.call_cases found with same | ⟨_, looking⟩ | ⟨before, _, was, same, _, advances⟩
    · have kept := agreed.returned call (List.mem_of_getElem? same) script returns
      exact moves.get_of_kept (stays call.locale) kept
    · rw [Call.Returns, looking] at returns
      cases returns
    · have returned := agreed.returned before (List.mem_of_getElem? was)
      rw [← same]
      exact advances.get_of_returns returned returns
  · intro locale script found
    rcases moves.get_eq_some found with earlier | ⟨caller, call, _, same, _, stored⟩
    · rcases agreed.stored locale script earlier with begun | ⟨call, member, same, stored⟩
      · exact .inl begun
      · obtain ⟨caller, was⟩ := List.mem_iff_getElem?.1 member
        have ended : call.stage.result? = some (.ok script) := by rw [stored]; rfl
        have still := moves.found_of_ended was ended
        exact .inr ⟨call, List.mem_of_getElem? still, same, stored⟩
    · exact .inr ⟨_, List.mem_of_getElem? stored, same, rfl⟩

theorem agreed_run (options : Options) (start : Cache) {actions : List (Action ε)}
    (stay : ∀ action ∈ actions, ∀ locale, ¬action.Drops locale) :
    Agreed start (World.run options ⟨start, []⟩ actions) :=
  World.run_induction (.empty start) fun action member _ _ agreed moves =>
    agreed.step moves (stay action member)

/-- What calls that share a cache can rely on after the actions. -/
structure Reliable (options : Options) (start : Cache) (actions : List (Action ε)) : Prop where
  /-- All calls for a locale that end well get one script. -/
  same : ∀ first ∈ (World.run options ⟨start, []⟩ actions).calls,
    ∀ second ∈ (World.run options ⟨start, []⟩ actions).calls, first.locale = second.locale →
    ∀ script other, first.Returns script → second.Returns other → script = other
  /-- If it was not there at the start, one of them has compiled it from what it has loaded. -/
  compiled : ∀ call ∈ (World.run options ⟨start, []⟩ actions).calls, ∀ script,
    call.Returns script → start.get? call.locale = none →
    ∃ maker ∈ (World.run options ⟨start, []⟩ actions).calls, maker.locale = call.locale ∧
      maker.stage = .stored script script ∧
      ∃ catalog, maker.load () = .ok catalog ∧ compile options catalog = .ok script.body
  /-- No two calls compile one script. -/
  apart : ∀ (first second : Nat) call other own script,
    (World.run options ⟨start, []⟩ actions).calls[first]? = some call →
    (World.run options ⟨start, []⟩ actions).calls[second]? = some other →
    call.stage.own? = some own → other.stage.own? = some script →
    own.number = script.number → first = second
  /-- What is there for a locale stays. -/
  stays : ∀ before rest, actions = before ++ rest → ∀ locale script,
    (World.run options ⟨start, []⟩ before).cache.get? locale = some script →
    (World.run options ⟨start, []⟩ actions).cache.get? locale = some script

/-- Whatever the order in which the steps of any number of calls follow one another, the calls for
one locale agree, as long as no script is dropped. -/
theorem reliable_of_no_drops (options : Options) (start : Cache) (actions : List (Action ε))
    (stay : ∀ action ∈ actions, ∀ locale, ¬action.Drops locale) :
    Reliable options start actions := by
  have agreed := agreed_run options start stay
  have sound := sound_run options start actions
  constructor
  · intro first member second member' locale script other returns returns'
    have kept := agreed.returned first member script returns
    have kept' := agreed.returned second member' other returns'
    rw [locale] at kept
    exact Option.some.inj (kept.symm.trans kept')
  · intro call member script returns absent
    have kept := agreed.returned call member script returns
    rcases agreed.stored call.locale script kept with begun | ⟨maker, inside, same, stored⟩
    · cases absent.symm.trans begun
    · have owns : maker.stage.own? = some script := by rw [stored]; rfl
      exact ⟨maker, inside, same, stored, sound.compiled maker inside script owns⟩
  · exact sound.apart
  · rintro before rest rfl locale script kept
    rw [World.run, List.foldl_append]
    refine @World.run_induction _ _ (fun world => world.cache.get? locale = some script) _ _ kept ?_
    intro action member _ _ found moves
    exact moves.get_of_kept (stay action (List.mem_append_right _ member) locale) found

def crossing : List (Action Empty) :=
  [.start "fr" fun _ => .ok .empty,
    .start "fr" fun _ => .ok ⟨"", .ofList [(.singular "yes", .single "oui")]⟩,
    .proceed 0, .proceed 1, .proceed 0, .proceed 1, .proceed 1, .proceed 0]

theorem reliable_crossing :
    (∀ action ∈ crossing, ∀ locale, ¬action.Drops locale) ∧ Reliable {} .empty crossing ∧
      (World.run {} ⟨.empty, []⟩ crossing).calls.map (fun call =>
        (call.stage.own?.map Compiled.number,
          call.stage.result?.bind fun result => result.toOption.map Compiled.number)) =
        [(some 0, some 1), (some 1, some 1)] := by
  have stay : ∀ action ∈ crossing, ∀ locale, ¬action.Drops locale := by
    intro action member locale drops
    cases drops <;> simp [crossing] at member
  exact ⟨stay, reliable_of_no_drops {} .empty crossing stay, by decide⟩

end Phrasebook.Artifact.Cache
