import Phrasebook.Proofs.Artifact.Interleaving

/-!
What a drop is worth while calls are under way. A call that has compiled its script before the
drop but stores it only afterwards brings an old script back; nothing else does.
-/

namespace Phrasebook.Artifact.Cache

variable {ε : Type} {options : Options} {cache next : Cache} {call : Call ε} {stage : Stage ε}
  {world after : World ε} {action : Action ε}

def World.HasCompiled (world : World ε) (script : Compiled) : Prop :=
  ∃ call ∈ world.calls, call.stage.own? = some script

/-- What the locale is answered with has been loaded and compiled since: both what the cache has
for it now, and what the calls have got that began after all that were there before. -/
structure Renewed (locale : String) (before now : World ε) : Prop where
  kept : ∀ script, now.cache.get? locale = some script → ¬before.HasCompiled script
  returned : ∀ (caller : Nat) call script, before.calls.length ≤ caller →
    now.calls[caller]? = some call → call.locale = locale → call.Returns script →
    ¬before.HasCompiled script

/-- From some time on, all scripts for the locale have numbers from the mark on: those in the
cache, those about to be stored, and those that the calls from the first one on have got. -/
structure Marked (locale : String) (mark first : Nat) (world : World ε) : Prop where
  next : mark ≤ world.cache.next
  kept : ∀ script, world.cache.get? locale = some script → mark ≤ script.number
  storing : ∀ call ∈ world.calls, call.locale = locale → ∀ own, call.stage = .storing own →
    mark ≤ own.number
  returned : ∀ (caller : Nat) call script, first ≤ caller → world.calls[caller]? = some call →
    call.locale = locale → call.Returns script → mark ≤ script.number

theorem Advances.number_of_storing (advances : Advances options cache call stage next)
    {own : Compiled} (storing : stage = .storing own) :
    call.stage = .storing own ∨ own.number = cache.next := by
  cases advances with
  | compiled =>
    cases storing
    exact .inr rfl
  | ended => exact .inl storing
  | hit | miss | failed | late | kept => cases storing

/-- A call that ends well finds its script in the cache, or stores its own. -/
theorem Advances.returns_cases (advances : Advances options cache call stage next)
    {script : Compiled} (returns : stage.result? = some (.ok script)) :
    call.Returns script ∨ cache.get? call.locale = some script ∨ call.stage = .storing script := by
  cases advances with
  | hit _ found | late _ found =>
    cases returns
    exact .inr (.inl found)
  | kept storing =>
    cases returns
    exact .inr (.inr storing)
  | miss | failed | compiled => cases returns
  | ended => exact .inl returns

theorem Marked.step {locale : String} {mark first : Nat} (marked : Marked locale mark first world)
    (moves : Moves options world action after) : Marked locale mark first after := by
  constructor
  · exact marked.next.trans moves.next_le
  · intro script found
    rcases moves.get_eq_some found with earlier | ⟨caller, call, was, same, storing, _⟩
    · exact marked.kept script earlier
    · exact marked.storing call (List.mem_of_getElem? was) same script storing
  · intro call member same own storing
    obtain ⟨caller, found⟩ := List.mem_iff_getElem?.1 member
    rcases moves.call_cases found with was | ⟨_, looking⟩ | ⟨before, _, was, locale, _, advances⟩
    · exact marked.storing call (List.mem_of_getElem? was) same own storing
    · cases looking.symm.trans storing
    · rcases advances.number_of_storing storing with earlier | number
      · exact marked.storing before (List.mem_of_getElem? was) (locale.trans same) own earlier
      · exact number ▸ marked.next
  · intro caller call script late found same returns
    rcases moves.call_cases found with was | ⟨_, looking⟩ | ⟨before, _, was, locale, _, advances⟩
    · exact marked.returned caller call script late was same returns
    · rw [Call.Returns, looking] at returns
      cases returns
    · have same := locale.trans same
      rcases advances.returns_cases returns with earlier | kept | storing
      · exact marked.returned caller before script late was same earlier
      · exact marked.kept script (same ▸ kept)
      · exact marked.storing before (List.mem_of_getElem? was) same script storing

theorem Moves.calls_of_drops (moves : Moves options world action after) {locale : String}
    (drops : action.Drops locale) : after.calls = world.calls := by
  cases drops <;> cases moves <;> rfl

theorem Marked.of_drops {locale : String} (moves : Moves options world action after)
    (drops : action.Drops locale)
    (idle : ∀ call ∈ world.calls, call.locale = locale → ∀ own, call.stage ≠ .storing own) :
    Marked locale world.cache.next world.calls.length after := by
  constructor
  · exact moves.next_le
  · intro script found
    cases (moves.get_of_drops drops).symm.trans found
  · intro call member same own storing
    rw [moves.calls_of_drops drops] at member
    exact absurd storing (idle call member same own)
  · intro caller call script late found
    rw [moves.calls_of_drops drops] at found
    obtain ⟨inside, _⟩ := List.getElem?_eq_some_iff.1 found
    exact absurd inside (Nat.not_lt.2 late)

theorem Marked.renewed {locale : String} {before now : World ε} (sound : Sound options before)
    (marked : Marked locale before.cache.next before.calls.length now) :
    Renewed locale before now := by
  have older : ∀ script, before.HasCompiled script → script.number < before.cache.next := by
    rintro script ⟨call, member, owns⟩
    exact sound.numbered call member script owns
  constructor
  · intro script found compiled
    exact absurd (older script compiled) (Nat.not_lt.2 (marked.kept script found))
  · intro caller call script late found same returns compiled
    have bound := marked.returned caller call script late found same returns
    exact absurd (older script compiled) (Nat.not_lt.2 bound)

theorem World.get_of_storing (options : Options) {caller : Nat} {own : Compiled}
    (found : world.calls[caller]? = some call) (storing : call.stage = .storing own)
    (absent : world.cache.get? call.locale = none) :
    (world.act options (.proceed caller)).cache.get? call.locale = some own := by
  simp only [World.act, found, Call.advance, storing, putIfAbsent, absent]
  exact Dictionary.find_insert_self _ _ _

/-- After a drop, whatever comes, a locale is answered with nothing that was compiled before it,
exactly if no call for the locale stands between compiling a script and storing it. -/
theorem renewed_iff (options : Options) (past : List (Action ε)) {drop : Action ε}
    {locale : String} (drops : drop.Drops locale) :
    (∀ future, Renewed locale (World.run options ⟨.empty, []⟩ past)
        (World.run options ((World.run options ⟨.empty, []⟩ past).act options drop) future)) ↔
      ∀ call ∈ (World.run options ⟨.empty, []⟩ past).calls, call.locale = locale →
        ∀ own, call.stage ≠ .storing own := by
  have sound := sound_run options .empty past
  generalize World.run options ⟨.empty, []⟩ past = before at sound ⊢
  have moves := moves_act options before drop
  constructor
  · intro renewed call member same own storing
    obtain ⟨caller, found⟩ := List.mem_iff_getElem?.1 member
    subst same
    rw [← moves.calls_of_drops drops] at found
    have back := World.get_of_storing options found storing (moves.get_of_drops drops)
    have owns : call.stage.own? = some own := by rw [storing]; rfl
    exact (renewed [.proceed caller]).kept own back ⟨call, member, owns⟩
  · intro idle future
    apply Marked.renewed sound
    exact World.run_induction (.of_drops moves drops idle) fun _ _ _ _ marked moves =>
      marked.step moves

def settled : List (Action Empty) :=
  [.start "fr" fun _ => .ok .empty, .proceed 0, .proceed 0, .proceed 0,
    .start "fr" fun _ => .ok .empty]

theorem renewed_settled :
    Action.Drops (.invalidate "fr" : Action Empty) "fr" ∧
      ∀ future, Renewed "fr" (World.run {} ⟨.empty, []⟩ settled)
        (World.run {} ((World.run {} ⟨.empty, []⟩ settled).act {} (.invalidate "fr")) future) := by
  have drops : Action.Drops (.invalidate "fr" : Action Empty) "fr" := .invalidate "fr"
  have ended : ∀ call ∈ (World.run {} ⟨.empty, []⟩ settled).calls,
      call.stage.own?.isSome = true → call.stage.result?.isSome = true := by decide
  refine ⟨drops, (renewed_iff {} settled drops).2 ?_⟩
  intro call member _ own storing
  have done := ended call member
  rw [storing] at done
  cases done rfl

def overtaken : List (Action Empty) :=
  [.start "fr" fun _ => .ok .empty, .proceed 0, .proceed 0]

/-- Here the script comes back although its locale has been dropped. -/
theorem not_renewed_of_overtaken :
    ¬∀ (past : List (Action Empty)) (drop : Action Empty) (locale : String), drop.Drops locale →
      ∀ future, Renewed locale (World.run {} ⟨.empty, []⟩ past)
        (World.run {} ((World.run {} ⟨.empty, []⟩ past).act {} drop) future) := by
  intro renewed
  have stale : ∃ script, (World.run {} ((World.run {} ⟨.empty, []⟩ overtaken).act {}
      (.invalidate "fr")) [.proceed 0]).cache.get? "fr" = some script ∧
      (World.run {} ⟨.empty, []⟩ overtaken).HasCompiled script :=
    ⟨_, rfl, _, List.mem_cons_self, rfl⟩
  obtain ⟨script, found, compiled⟩ := stale
  exact (renewed overtaken (.invalidate "fr") "fr" (.invalidate "fr") [.proceed 0]).kept script
    found compiled

end Phrasebook.Artifact.Cache
