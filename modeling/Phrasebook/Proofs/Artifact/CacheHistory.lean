import Mathlib.Data.List.Induction
import Phrasebook.Artifact.Cache
import Phrasebook.Proofs.Dictionary

/-!
A cache over a whole history of requests: every answer follows from the answers before it.
-/

namespace Phrasebook.Artifact.Cache

variable {ε : Type}

inductive Request (ε : Type) where
  | getOrCompile (locale : String) (load : Unit → Except ε Catalog)
  | get (locale : String)
  | invalidate (locale : String)
  | clear
  | size

inductive Reply (ε : Type) where
  | outcome (outcome : Outcome ε)
  | kept (script : Option Compiled)
  | dropped (held : Bool)
  | cleared
  | count (size : Nat)

def answer (options : Options) (cache : Cache) : Request ε → Reply ε × Cache
  | .getOrCompile locale load =>
    let (outcome, after) := cache.getOrCompile options locale load
    (.outcome outcome, after)
  | .get locale => (.kept (cache.get? locale), cache)
  | .invalidate locale =>
    let (held, after) := cache.invalidate locale
    (.dropped held, after)
  | .clear => (.cleared, cache.clear)
  | .size => (.count cache.size, cache)

structure Event (ε : Type) where
  request : Request ε
  reply : Reply ε

def history (options : Options) (requests : List (Request ε)) : List (Event ε) × Cache :=
  requests.foldl (fun (events, cache) request =>
    let (reply, after) := cache.answer options request
    (events ++ [⟨request, reply⟩], after)) ([], .empty)

inductive Event.Compiles : Event ε → String → Compiled → Prop
  | outcome (locale : String) (load : Unit → Except ε Catalog) (script : Compiled) :
      Compiles ⟨.getOrCompile locale load, .outcome ⟨.ok script, true⟩⟩ locale script

inductive Event.Drops : Event ε → String → Prop
  | invalidate (locale : String) (reply : Reply ε) : Drops ⟨.invalidate locale, reply⟩ locale
  | clear (locale : String) (reply : Reply ε) : Drops ⟨.clear, reply⟩ locale

def Holds (events : List (Event ε)) (locale : String) (script : Compiled) : Prop :=
  ∃ before event after, events = before ++ event :: after ∧ event.Compiles locale script ∧
    ∀ later ∈ after, ¬later.Drops locale

def Unheld (events : List (Event ε)) (locale : String) : Prop :=
  ∀ script, ¬Holds events locale script

/-- The reply that the events so far call for. A script that is held is the answer, and nothing is
loaded; else the loaded catalog is compiled into a script that has not been there before. -/
inductive Answers (options : Options) (events : List (Event ε)) : Request ε → Reply ε → Prop
  | hit {locale load script} : Holds events locale script →
      Answers options events (.getOrCompile locale load) (.outcome ⟨.ok script, false⟩)
  | notLoaded {locale load e} : Unheld events locale → load () = .error e →
      Answers options events (.getOrCompile locale load) (.outcome ⟨.error (.load e), true⟩)
  | notCompiled {locale load catalog e} : Unheld events locale → load () = .ok catalog →
      compile options catalog = .error e →
      Answers options events (.getOrCompile locale load) (.outcome ⟨.error (.compile e), true⟩)
  | compiled {locale load catalog script} : Unheld events locale → load () = .ok catalog →
      compile options catalog = .ok script.body →
      (∀ event ∈ events, ∀ other, ¬event.Compiles other script) →
      Answers options events (.getOrCompile locale load) (.outcome ⟨.ok script, true⟩)
  | found {locale script} : Holds events locale script →
      Answers options events (.get locale) (.kept (some script))
  | missing {locale} : Unheld events locale → Answers options events (.get locale) (.kept none)
  | dropped {locale script} : Holds events locale script →
      Answers options events (.invalidate locale) (.dropped true)
  | notDropped {locale} : Unheld events locale →
      Answers options events (.invalidate locale) (.dropped false)
  | cleared : Answers options events .clear .cleared
  | count {locales : List String} : locales.Nodup →
      (∀ locale, locale ∈ locales ↔ ∃ script, Holds events locale script) →
      Answers options events .size (.count locales.length)

def Request.Concerns (locale : String) : Request ε → Prop
  | .getOrCompile other _ | .invalidate other => other = locale
  | .clear => True
  | .get _ | .size => False

inductive Serves (options : Options) (cache : Cache) : Request ε → Reply ε → Cache → Prop
  | hit {locale load script} : cache.get? locale = some script →
      Serves options cache (.getOrCompile locale load) (.outcome ⟨.ok script, false⟩) cache
  | notLoaded {locale load e} : cache.get? locale = none → load () = .error e →
      Serves options cache (.getOrCompile locale load) (.outcome ⟨.error (.load e), true⟩) cache
  | notCompiled {locale load catalog e} : cache.get? locale = none → load () = .ok catalog →
      compile options catalog = .error e →
      Serves options cache (.getOrCompile locale load) (.outcome ⟨.error (.compile e), true⟩) cache
  | compiled {locale load catalog body} : cache.get? locale = none → load () = .ok catalog →
      compile options catalog = .ok body →
      Serves options cache (.getOrCompile locale load)
        (.outcome ⟨.ok ⟨cache.next, body⟩, true⟩)
        ⟨cache.scripts.insert locale ⟨cache.next, body⟩, cache.next + 1⟩
  | get {locale} : Serves options cache (.get locale) (.kept (cache.get? locale)) cache
  | invalidate {locale} :
      Serves options cache (.invalidate locale) (.dropped (cache.scripts.contains locale))
        { cache with scripts := cache.scripts.erase locale }
  | clear : Serves options cache .clear .cleared { cache with scripts := .empty }
  | size : Serves options cache .size (.count cache.size) cache

theorem serves_answer (options : Options) (cache : Cache) (request : Request ε) :
    Serves options cache request (cache.answer options request).1
      (cache.answer options request).2 := by
  cases request with
  | get locale => exact .get
  | invalidate locale => exact .invalidate
  | clear => exact .clear
  | size => exact .size
  | getOrCompile locale load =>
    simp only [answer, getOrCompile]
    cases kept : cache.get? locale with
    | some script => exact .hit kept
    | none =>
      cases loaded : load () with
      | error e => exact .notLoaded kept loaded
      | ok catalog =>
        cases compiled : compile options catalog with
        | error e =>
          simp only [compileLoaded, compiled]
          exact .notCompiled kept loaded compiled
        | ok body =>
          have absent : Cache.get? { cache with next := cache.next + 1 } locale = none := kept
          simp only [compileLoaded, compiled, putIfAbsent, absent]
          exact .compiled kept loaded compiled

theorem holds_concat (events : List (Event ε)) (event : Event ε) (locale : String)
    (script : Compiled) :
    Holds (events ++ [event]) locale script ↔
      event.Compiles locale script ∨ Holds events locale script ∧ ¬event.Drops locale := by
  constructor
  · rintro ⟨before, own, after, whole, compiles, kept⟩
    rcases List.eq_nil_or_concat after with rfl | ⟨others, last, rfl⟩
    · obtain ⟨_, same⟩ := List.append_inj' whole rfl
      cases same
      exact .inl compiles
    · rw [List.concat_eq_append, ← List.cons_append, ← List.append_assoc] at whole
      obtain ⟨rfl, same⟩ := List.append_inj' whole rfl
      cases same
      refine .inr ⟨⟨before, own, others, rfl, compiles, ?_⟩, kept event (by simp)⟩
      intro later member
      exact kept later (by simp [member])
  · rintro (compiles | ⟨⟨before, own, after, rfl, compiles, kept⟩, still⟩)
    · exact ⟨events, event, [], rfl, compiles, List.forall_mem_nil _⟩
    · refine ⟨before, own, after ++ [event], by simp, compiles, ?_⟩
      intro later member
      rcases List.mem_append.1 member with early | late
      · exact kept later early
      · rwa [List.mem_singleton.1 late]

structure Agrees (events : List (Event ε)) (cache : Cache) : Prop where
  held : ∀ locale script, cache.get? locale = some script ↔ Holds events locale script
  numbered : ∀ event ∈ events, ∀ locale script, event.Compiles locale script →
    script.number < cache.next

variable {options : Options} {events : List (Event ε)} {cache after : Cache} {request : Request ε}
  {reply : Reply ε}

theorem Agrees.empty : Agrees ([] : List (Event ε)) Cache.empty := by
  constructor
  · intro locale script
    constructor
    · intro found
      cases found
    · rintro ⟨before, event, after, whole, _⟩
      simp at whole
  · intro event member
    cases member

theorem Agrees.unheld (agrees : Agrees events cache) {locale : String} :
    cache.get? locale = none ↔ Unheld events locale := by
  rw [Option.eq_none_iff_forall_ne_some]
  exact forall_congr' fun script => (agrees.held locale script).not

/-- An event that compiles a script where none was held leaves it, one that drops leaves none, and
any other leaves what was there. -/
theorem Agrees.concat (agrees : Agrees events cache) {event : Event ε}
    (compiled : ∀ locale script, event.Compiles locale script → cache.get? locale = none ∧
      after.get? locale = some script ∧ script.number < after.next)
    (dropped : ∀ locale, event.Drops locale → after.get? locale = none)
    (kept : ∀ locale, (∀ script, ¬event.Compiles locale script) → ¬event.Drops locale →
      after.get? locale = cache.get? locale)
    (grows : cache.next ≤ after.next) : Agrees (events ++ [event]) after := by
  constructor
  · intro locale script
    rw [holds_concat, ← agrees.held]
    by_cases compiles : ∃ script, event.Compiles locale script
    · obtain ⟨own, compiles⟩ := compiles
      obtain ⟨unheld, held, _⟩ := compiled locale own compiles
      constructor
      · intro found
        cases held.symm.trans found
        exact .inl compiles
      · rintro (again | ⟨found, _⟩)
        · exact (compiled locale script again).2.1
        · cases unheld.symm.trans found
    · have none : ∀ script, ¬event.Compiles locale script := not_exists.1 compiles
      by_cases drops : event.Drops locale
      · simp [none, drops, dropped locale drops]
      · simp [none, drops, kept locale none drops]
  · intro own member locale script compiles
    rcases List.mem_append.1 member with early | late
    · exact (agrees.numbered own early locale script compiles).trans_le grows
    · rw [List.mem_singleton.1 late] at compiles
      exact (compiled locale script compiles).2.2

/-- What the cache holds keeps in step with the events. -/
theorem Agrees.step (agrees : Agrees events cache)
    (serves : Serves options cache request reply after) :
    Agrees (events ++ [⟨request, reply⟩]) after := by
  cases serves with
  | hit | notLoaded | notCompiled | get | size =>
    refine agrees.concat ?_ ?_ (fun _ _ _ => rfl) le_rfl
    · intro locale script compiles
      cases compiles
    · intro locale drops
      cases drops
  | @compiled locale load catalog body unheld =>
    refine agrees.concat ?_ ?_ ?_ (Nat.le_succ cache.next)
    · intro other script compiles
      cases compiles
      exact ⟨unheld, Dictionary.find_insert_self _ _ _, Nat.lt_succ_self cache.next⟩
    · intro other drops
      cases drops
    · intro other idle _
      apply Dictionary.find_insert_of_ne
      intro same
      subst same
      exact idle _ (.outcome other load _)
  | @invalidate locale =>
    refine agrees.concat ?_ ?_ ?_ le_rfl
    · intro other script compiles
      cases compiles
    · intro other drops
      cases drops
      exact Dictionary.find_erase_self _ _
    · intro other _ kept
      apply Dictionary.find_erase_of_ne
      intro same
      subst same
      exact kept (.invalidate other _)
  | clear =>
    refine agrees.concat ?_ (fun _ _ => rfl) ?_ le_rfl
    · intro other script compiles
      cases compiles
    · intro other _ kept
      exact absurd (.clear other _) kept

theorem Agrees.answers (agrees : Agrees events cache)
    (serves : Serves options cache request reply after) : Answers options events request reply := by
  cases serves with
  | hit kept => exact .hit ((agrees.held _ _).1 kept)
  | notLoaded unheld loaded => exact .notLoaded (agrees.unheld.1 unheld) loaded
  | notCompiled unheld loaded compiled =>
    exact .notCompiled (agrees.unheld.1 unheld) loaded compiled
  | compiled unheld loaded compiled =>
    refine .compiled (agrees.unheld.1 unheld) loaded compiled ?_
    intro event member other earlier
    exact absurd (agrees.numbered event member other _ earlier) (Nat.lt_irrefl cache.next)
  | @get locale =>
    cases kept : cache.get? locale with
    | none => exact .missing (agrees.unheld.1 kept)
    | some script => exact .found ((agrees.held _ _).1 kept)
  | @invalidate locale =>
    have was : cache.scripts.contains locale = (cache.get? locale).isSome := rfl
    rw [was]
    cases kept : cache.get? locale with
    | none => exact .notDropped (agrees.unheld.1 kept)
    | some script => exact .dropped ((agrees.held _ _).1 kept)
  | clear => exact .cleared
  | size =>
    have size : cache.size = cache.scripts.keys.length := (List.length_map Prod.fst).symm
    rw [size]
    refine .count (Dictionary.nodup_keys cache.scripts) ?_
    intro locale
    rw [Dictionary.mem_keys_iff, Dictionary.contains, Option.isSome_iff_exists]
    exact exists_congr (agrees.held locale)

theorem agrees_history (options : Options) (requests : List (Request ε)) :
    Agrees (history options requests).1 (history options requests).2 := by
  induction requests using List.reverseRecOn with
  | nil => exact .empty
  | append_singleton past request ih =>
    rw [history, List.foldl_concat]
    exact ih.step (serves_answer options _ request)

theorem Serves.get_of_not_concerns (serves : Serves options cache request reply after)
    {locale : String} (apart : ¬request.Concerns locale) :
    after.get? locale = cache.get? locale := by
  cases serves with
  | hit | notLoaded | notCompiled | get | size => rfl
  | compiled => exact Dictionary.find_insert_of_ne _ _ (Ne.symm apart)
  | invalidate => exact Dictionary.find_erase_of_ne _ (Ne.symm apart)
  | clear => exact absurd trivial apart

theorem Serves.eq_of_error (serves : Serves options cache request reply after)
    {e : CacheError ε} {loaded : Bool} (failed : reply = .outcome ⟨.error e, loaded⟩) :
    after = cache := by
  cases serves with
  | hit | notLoaded | notCompiled | get | size => rfl
  | compiled | invalidate | clear => cases failed

/-- Whatever has been asked before, the answer follows from the answers so far. A request for one
locale leaves what the cache has for the others, and a failure leaves the cache as it was. -/
theorem answers_history (options : Options) (past : List (Request ε)) (request : Request ε) :
    let (events, cache) := history options past
    let (reply, after) := cache.answer options request
    Answers options events request reply ∧
      (∀ locale script, cache.get? locale = some script ↔ Holds events locale script) ∧
      (∀ locale, ¬request.Concerns locale → after.get? locale = cache.get? locale) ∧
      (∀ e loaded, reply = .outcome ⟨.error e, loaded⟩ → after = cache) := by
  have agrees := agrees_history options past
  have serves := serves_answer options (history options past).2 request
  exact ⟨agrees.answers serves, agrees.held, fun _ apart => serves.get_of_not_concerns apart,
    fun _ _ failed => serves.eq_of_error failed⟩

end Phrasebook.Artifact.Cache
