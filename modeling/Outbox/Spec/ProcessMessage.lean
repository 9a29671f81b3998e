import Mathlib.Data.List.Forall2
import Outbox.ForStd.Visits
import Outbox.Native.ProcessMessage

/-!
# The course of a message

Whatever middlewares, handlers and publishers do and raise, `process_message` keeps to one
order. The lock is taken first and given back last. The middlewares are entered in order;
once all are, each is exited exactly once, the last entered first, unless a `BaseException`
breaks off the parsing. The calls are asked in order, only the first suitable one is called,
and its publishers are handed the same command one after another, up to the first that
raises.

## Key results

- `enterAll_steps`, `examine_steps`, `publishAll_steps`: how far each loop comes
- `handle_steps`: from the call of the handler to its last publish
- `process_message_course`: the whole record, with what its end says about it
-/

namespace Outbox.OutboxSubscriber

open ExitStack

variable {σ β : Type}

/-! ## The loops -/

/-- The middleware is entered. -/
def Enters (m : Middleware σ β) (s : σ) : Prop := (m.aenter s).1 = .ok ()

/-- The call is not suitable. -/
def Unsuitable (h : HandlerItem σ β) (s : σ) : Prop := (h.isSuitable s).1 = .ok none

/-- The publisher publishes the command. -/
def Takes (scopes : List (Scope σ (Command β) Unit)) (q : Publisher σ β) (c : Command β × σ) :
    Prop := (q.publish c.1 scopes c.2).1 = .ok ()

/-- The middlewares are entered in order, up to the first that raises. -/
theorem enterAll_steps (i : Nat) (ms : List (Middleware σ β)) (f : Frame σ β) :
    ∃ states : List σ, ms.Visits Enters states ∧
      (enterAll i ms f).2.steps =
        f.steps ++ (states.zipIdx i).map (fun s => .entering s.2 s.1) ∧
      ((enterAll i ms f).1 = .ok () ↔ List.Forall₂ Enters ms states) := by
  induction ms generalizing i f with
  | nil => exact ⟨[], .nil, by simp [enterAll], by simp [enterAll]⟩
  | cons m ms ih =>
    have hsteps := Frame.runs_steps m.aenter (f.note (.entering i f.state))
    simp only [enterAll]
    split
    · rename_i e f' hraised
      have hstops : ¬Enters m f.state := by
        have hfirst : (m.aenter f.state).1 = .error e := congrArg Prod.fst hraised
        simp [Enters, hfirst]
      rw [hraised] at hsteps
      exact ⟨[f.state], .stop hstops, by simpa using hsteps, by simp [hstops]⟩
    · rename_i f' hentered
      have hgoes : Enters m f.state := congrArg Prod.fst hentered
      rw [hentered] at hsteps
      obtain ⟨states, hvisits, hrest, hall⟩ := ih (i + 1) f'
      refine ⟨f.state :: states, .next hgoes hvisits, ?_, by simp [hall, hgoes]⟩
      rw [hrest, hsteps]
      simp [List.zipIdx_cons]

/-- The call examined last, and the state it was examined in. -/
structure Last (calls : List (HandlerItem σ β)) (examined : List σ) (h : HandlerItem σ β) (s : σ) :
    Prop where
  item : calls[examined.length - 1]? = some h
  state : examined[examined.length - 1]? = some s

namespace Last

variable {calls : List (HandlerItem σ β)} {examined : List σ} {h h' : HandlerItem σ β} {s s' : σ}

theorem cons (hlast : Last calls examined h s) (h' : HandlerItem σ β) (s' : σ) :
    Last (h' :: calls) (s' :: examined) h s := by
  cases examined with
  | nil => simpa using hlast.state
  | cons s'' examined =>
    constructor
    · simpa using hlast.item
    · simpa using hlast.state

theorem unique (hlast : Last calls examined h s) (hlast' : Last calls examined h' s') :
    h = h' ∧ s = s' :=
  ⟨Option.some.inj (hlast.item.symm.trans hlast'.item),
    Option.some.inj (hlast.state.symm.trans hlast'.state)⟩

theorem unsuitable (hlast : Last calls examined h s)
    (hnone : List.Forall₂ Unsuitable calls examined) : Unsuitable h s := by
  obtain ⟨hcall, rfl⟩ := List.getElem?_eq_some_iff.mp hlast.item
  obtain ⟨hstate, rfl⟩ := List.getElem?_eq_some_iff.mp hlast.state
  exact hnone.get hcall hstate

end Last

/-- What ended the loop over the calls; the first of them has the given index. -/
def Examined.EndOf (i : Nat) (calls : List (HandlerItem σ β)) (examined : List σ) :
    Examined σ β → Prop
  | .suitable call h message => call = i + (examined.length - 1) ∧
      ∃ s, Last calls examined h s ∧ (h.isSuitable s).1 = .ok (some message)
  | .parsingError e => e.isException = true ∧
      ∃ h s, Last calls examined h s ∧ (h.isSuitable s).1 = .error e
  | .escaped e => e.isException = false ∧
      ∃ h s, Last calls examined h s ∧ (h.isSuitable s).1 = .error e
  | .none => List.Forall₂ Unsuitable calls examined

theorem Examined.EndOf.cons {i : Nat} {calls : List (HandlerItem σ β)} {examined : List σ}
    {ended : Examined σ β} (hend : ended.EndOf (i + 1) calls examined) {h : HandlerItem σ β} {s : σ}
    (hpassed : Unsuitable h s) : ended.EndOf i (h :: calls) (s :: examined) := by
  cases ended with
  | suitable call h' message =>
    obtain ⟨hcall, s', hlast, hsuitable⟩ := hend
    have hpos : 0 < examined.length := by
      cases examined with
      | nil => simpa using hlast.state
      | cons s'' examined => simp
    refine ⟨?_, s', hlast.cons h s, hsuitable⟩
    rw [List.length_cons]
    omega
  | parsingError e =>
    obtain ⟨hexception, h', s', hlast, hraised⟩ := hend
    exact ⟨hexception, h', s', hlast.cons h s, hraised⟩
  | escaped e =>
    obtain ⟨hexception, h', s', hlast, hraised⟩ := hend
    exact ⟨hexception, h', s', hlast.cons h s, hraised⟩
  | none => exact List.Forall₂.cons hpassed hend

/-- The calls are asked in order, up to the first that is suitable or raises. -/
theorem examine_steps (i : Nat) (calls : List (HandlerItem σ β)) (f : Frame σ β) :
    ∃ examined : List σ, calls.Visits Unsuitable examined ∧
      (examine i calls f).2.steps =
        f.steps ++ (examined.zipIdx i).map (fun s => .examining s.2 s.1) ∧
      (examine i calls f).1.EndOf i calls examined := by
  induction calls generalizing i f with
  | nil => exact ⟨[], .nil, by simp [examine], .nil⟩
  | cons h calls ih =>
    have hsteps := Frame.runs_steps h.isSuitable (f.note (.examining i f.state))
    have hfirst : Last (h :: calls) [f.state] h f.state := ⟨rfl, rfl⟩
    simp only [examine]
    split
    · rename_i e f' hend
      have hraised : (h.isSuitable f.state).1 = .error e := congrArg Prod.fst hend
      rw [hend] at hsteps
      refine ⟨[f.state], .stop (by simp [Unsuitable, hraised]), by simpa using hsteps, ?_⟩
      by_cases hexception : e.isException = true
      · simp only [hexception, if_true]
        exact ⟨hexception, h, f.state, hfirst, hraised⟩
      · simp only [hexception]
        exact ⟨by simpa using hexception, h, f.state, hfirst, hraised⟩
    · rename_i message f' hend
      have hsuitable : (h.isSuitable f.state).1 = .ok (some message) := congrArg Prod.fst hend
      rw [hend] at hsteps
      exact ⟨[f.state], .stop (by simp [Unsuitable, hsuitable]), by simpa using hsteps,
        rfl, f.state, hfirst, hsuitable⟩
    · rename_i f' hend
      have hpassed : Unsuitable h f.state := congrArg Prod.fst hend
      rw [hend] at hsteps
      obtain ⟨examined, hvisits, hrest, hends⟩ := ih (i + 1) f'
      refine ⟨f.state :: examined, .next hpassed hvisits, ?_, hends.cons hpassed⟩
      rw [hrest, hsteps]
      simp [List.zipIdx_cons]

/-- The publishers are handed the command of the same result, up to the first that raises. -/
theorem publishAll_steps (repr : String → String) (result : Result β)
    (scopes : List (Scope σ (Command β) Unit)) (i : Nat) (ps : List (Publisher σ β))
    (f : Frame σ β) :
    ∃ published : List (Command β × σ),
      (publishAll repr result scopes i ps f).2.steps =
        f.steps ++ (published.zipIdx i).map (fun c => .publishing c.2 c.1.1 c.1.2) ∧
      (∀ e, asPublishCommand repr result = .error e → published = []) ∧
      (∀ cmd, asPublishCommand repr result = .ok cmd →
        ps.Visits (Takes scopes) published ∧ ∀ c ∈ published, c.1 = cmd) ∧
      ((publishAll repr result scopes i ps f).1 = .ok () →
        List.Forall₂ (Takes scopes) ps published) := by
  induction ps generalizing i f with
  | nil => exact ⟨[], by simp [publishAll], by simp, fun _ _ => ⟨.nil, by simp⟩, fun _ => .nil⟩
  | cons q ps ih =>
    simp only [publishAll]
    split
    · rename_i e hcmd
      exact ⟨[], by simp, by simp, by simp [hcmd], by simp⟩
    · rename_i cmd hcmd
      have hsteps := Frame.runs_steps (q.publish cmd scopes) (f.note (.publishing i cmd f.state))
      split
      · rename_i e f' hend
        have hstops : ¬Takes scopes q (cmd, f.state) := by
          have hraised : (q.publish cmd scopes f.state).1 = .error e := congrArg Prod.fst hend
          simp [Takes, hraised]
        rw [hend] at hsteps
        refine ⟨[(cmd, f.state)], by simpa using hsteps, by simp [hcmd], ?_, by simp⟩
        intro cmd' hcmd'
        obtain rfl := Except.ok.inj (hcmd.symm.trans hcmd')
        exact ⟨.stop hstops, by simp⟩
      · rename_i f' hend
        have hgoes : Takes scopes q (cmd, f.state) := congrArg Prod.fst hend
        rw [hend] at hsteps
        obtain ⟨published, hrest, _, hvisits, hall⟩ := ih (i + 1) f'
        obtain ⟨hvisits, hsame⟩ := hvisits cmd hcmd
        refine ⟨(cmd, f.state) :: published, ?_, by simp [hcmd], ?_, ?_⟩
        · rw [hrest, hsteps]
          simp [List.zipIdx_cons]
        · intro cmd' hcmd'
          obtain rfl := Except.ok.inj (hcmd.symm.trans hcmd')
          exact ⟨.next hgoes hvisits, by simpa using hsame⟩
        · exact fun hok => .cons hgoes (hall hok)

/-! ## The course -/

/-- How far each part of `process_message` came, and in which states. -/
structure Course (σ β : Type) where
  /-- Where the middlewares were entered; the last of them may have raised. -/
  entered : List σ
  /-- Where the calls were examined. -/
  examined : List σ
  /-- Where the last of these was called. -/
  called : Option σ
  /-- The commands its publishers were handed, and where. -/
  published : List (Command β × σ)
  /-- The middlewares were exited. -/
  exited : Bool

/-- The record of a course under `n` middlewares. -/
def Course.steps (n : Nat) (c : Course σ β) : List (Step σ β) :=
  [.locked] ++ c.entered.zipIdx.map (fun s => .entering s.2 s.1) ++
    c.examined.zipIdx.map (fun s => .examining s.2 s.1) ++
    c.called.toList.map (.calling (c.examined.length - 1)) ++
    c.published.zipIdx.map (fun x => .publishing x.2 x.1.1 x.1.2) ++
    (if c.exited then (List.range' 0 n).reverse.map .exiting else []) ++ [.unlocked]

/-- The call examined last is suitable, and none of those before it is. -/
structure FirstSuitable (calls : List (HandlerItem σ β)) (examined : List σ)
    (h : HandlerItem σ β) (message : OutboxMessage) : Prop where
  suitable : ∃ s, Last calls examined h s ∧ (h.isSuitable s).1 = .ok (some message)
  earlier : ∀ j s, j + 1 < examined.length → examined[j]? = some s →
    ∃ h', calls[j]? = some h' ∧ Unsuitable h' s

/-- A `BaseException` came out of the examination of the last call. -/
def Escapes (calls : List (HandlerItem σ β)) (examined : List σ) (e : Thrown) : Prop :=
  e.isException = false ∧ ∃ h s, Last calls examined h s ∧ (h.isSuitable s).1 = .error e

namespace Pipeline

variable (p : Pipeline σ β)

/-- The handler, called in a state, returned the response. -/
def Returns (h : HandlerItem σ β) (message : OutboxMessage) (s : σ) (returned : Result β) : Prop :=
  (h.call message (p.middlewares.reverse.map Middleware.consumeScope) s).1 = .ok returned

/-- Publishing with the middlewares around it. -/
def TakesCommand (q : Publisher σ β) (c : Command β × σ) : Prop :=
  Takes (p.middlewares.reverse.map Middleware.publishScope) q c

/-- What follows the call of a handler in a state: where it returns a response that the guard
    lets pass and that makes a command, its publishers are handed this command in order, up
    to the first that raises; nothing is published otherwise. -/
structure Handles (h : HandlerItem σ β) (message : OutboxMessage) (s : σ)
    (published : List (Command β × σ)) : Prop where
  raised : (∀ returned, ¬p.Returns h message s returned) → published = []
  rejected : ∀ returned, p.Returns h message s returned →
    rejects (fillResult p.propagateInboundHeaders returned message) h.publishers = true →
    published = []
  unmade : ∀ returned e, p.Returns h message s returned →
    asPublishCommand p.repr (fillResult p.propagateInboundHeaders returned message) = .error e →
    published = []
  publishes : ∀ returned cmd, p.Returns h message s returned →
    rejects (fillResult p.propagateInboundHeaders returned message) h.publishers = false →
    asPublishCommand p.repr (fillResult p.propagateInboundHeaders returned message) = .ok cmd →
    (p.publishers h message).Visits p.TakesCommand published ∧ ∀ c ∈ published, c.1 = cmd

/-- The result is the response of the handler, filled in, let pass by the guard and published
    in full. -/
structure Delivers (h : HandlerItem σ β) (message : OutboxMessage) (s : σ)
    (published : List (Command β × σ)) (result : Result β) : Prop where
  returned : ∃ returned, p.Returns h message s returned ∧
    result = fillResult p.propagateInboundHeaders returned message
  accepted : rejects result h.publishers = false
  published : List.Forall₂ p.TakesCommand (p.publishers h message) published

/-- What a course and the end of `process_message` say about each other. -/
structure Keeps (c : Course σ β) (out : Except Thrown (Option (Result β))) : Prop where
  entered : p.middlewares.Visits Enters c.entered
  examined : List.Forall₂ Enters p.middlewares c.entered → p.calls.Visits Unsuitable c.examined
  unexamined : ¬List.Forall₂ Enters p.middlewares c.entered → c.examined = []
  called : ∀ s, c.called = some s → ∃ h message,
    FirstSuitable p.calls c.examined h message ∧ p.Handles h message s c.published
  uncalled : c.called = none → c.published = [] ∧
    ∀ h message, ¬FirstSuitable p.calls c.examined h message
  /-- The middlewares stay entered only where one raised on entering, or a `BaseException`
      came out of the parsing. -/
  torn : c.exited = false ↔ ¬List.Forall₂ Enters p.middlewares c.entered ∨
    ∃ e, Escapes p.calls c.examined e
  raised : c.exited = false → ∃ e, out = .error e
  /-- Only what was published in full is returned. -/
  returned : ∀ result, out = .ok (some result) → ∃ h message s,
    FirstSuitable p.calls c.examined h message ∧ c.called = some s ∧
      p.Delivers h message s c.published result

variable {p}

/-- From the call of the handler to its last publish. -/
theorem handle_steps (call : Nat) (h : HandlerItem σ β) (message : OutboxMessage)
    (f : Frame σ β) :
    ∃ published : List (Command β × σ),
      (p.handle call h message f).2.steps = f.steps ++ [.calling call f.state] ++
        published.zipIdx.map (fun x => .publishing x.2 x.1.1 x.1.2) ∧
      p.Handles h message f.state published ∧
      ∀ result, (p.handle call h message f).1 = .ok result →
        p.Delivers h message f.state published result := by
  have hsteps := Frame.runs_steps
    (h.call message (p.middlewares.reverse.map Middleware.consumeScope))
    (f.note (.calling call f.state))
  simp only [handle]
  split
  · rename_i e f' hend
    have hnothing (returned : Result β) : ¬p.Returns h message f.state returned := by
      have hraised : (h.call message (p.middlewares.reverse.map Middleware.consumeScope)
        f.state).1 = .error e := congrArg Prod.fst hend
      exact fun hreturns => nomatch hraised.symm.trans hreturns
    rw [hend] at hsteps
    refine ⟨[], by simpa using hsteps, ?_, by simp⟩
    exact
      { raised := fun _ => rfl
        rejected := fun _ _ _ => rfl
        unmade := fun _ _ _ _ => rfl
        publishes := fun returned _ hreturns => absurd hreturns (hnothing returned) }
  · rename_i returned f' hend
    have hreturns : p.Returns h message f.state returned := congrArg Prod.fst hend
    have honly : ∀ other, p.Returns h message f.state other → other = returned :=
      fun other hother => Except.ok.inj (hother.symm.trans hreturns)
    rw [hend] at hsteps
    split
    · rename_i hrejected
      refine ⟨[], by simpa using hsteps, ?_, by simp⟩
      exact
        { raised := fun _ => rfl
          rejected := fun _ _ _ => rfl
          unmade := fun _ _ _ _ => rfl
          publishes := fun other _ hother haccepted => by
            rw [honly other hother, hrejected] at haccepted
            cases haccepted }
    · rename_i haccepted
      obtain ⟨published, hpublished, hunmade, hvisits, hall⟩ := publishAll_steps p.repr
        (fillResult p.propagateInboundHeaders returned message)
        (p.middlewares.reverse.map Middleware.publishScope) 0 (p.publishers h message) f'
      have hhandles : p.Handles h message f.state published :=
        { raised := fun hraised => absurd hreturns (hraised returned)
          rejected := fun other hother hrejected => by
            rw [honly other hother] at hrejected
            exact absurd hrejected haccepted
          unmade := fun other e hother hcmd => by
            rw [honly other hother] at hcmd
            exact hunmade e hcmd
          publishes := fun other cmd hother _ hcmd => by
            rw [honly other hother] at hcmd
            exact hvisits cmd hcmd }
      split
      · rename_i e f'' hend'
        rw [hend'] at hpublished
        refine ⟨published, ?_, hhandles, by simp⟩
        rw [hpublished, hsteps]
        rfl
      · rename_i f'' hend'
        rw [hend'] at hpublished hall
        refine ⟨published, ?_, hhandles, fun result hresult => ?_⟩
        · rw [hpublished, hsteps]
          rfl
        · cases hresult
          exact ⟨⟨returned, hreturns, rfl⟩, by simpa using haccepted, hall rfl⟩

/-- The body of the `async with`, with what it pushed. -/
theorem body_steps (f : Frame σ β) :
    ∃ c : Course σ β, (p.body f).2.1 = c.exited ∧ p.Keeps c ((p.body f).1.map some) ∧
      (p.body f).2.2.steps = f.steps ++ c.entered.zipIdx.map (fun s => .entering s.2 s.1) ++
        c.examined.zipIdx.map (fun s => .examining s.2 s.1) ++
        c.called.toList.map (.calling (c.examined.length - 1)) ++
        c.published.zipIdx.map (fun x => .publishing x.2 x.1.1 x.1.2) := by
  obtain ⟨entered, hentered, hsteps, hall⟩ := enterAll_steps 0 p.middlewares f
  simp only [body]
  split
  · rename_i e f' hend
    rw [hend] at hsteps hall
    have hstopped : ¬List.Forall₂ Enters p.middlewares entered := fun h => nomatch hall.mpr h
    refine ⟨⟨entered, [], none, [], false⟩, rfl, ?_, by simpa using hsteps⟩
    exact
      { entered := hentered
        examined := fun h => absurd h hstopped
        unexamined := fun _ => rfl
        called := by simp
        uncalled := fun _ => ⟨rfl, fun h message hfirst => by
          obtain ⟨s, hlast, _⟩ := hfirst.suitable
          simpa using hlast.state⟩
        torn := by simp [hstopped]
        raised := fun _ => ⟨e, rfl⟩
        returned := by simp [Except.map] }
  · rename_i f' hend
    rw [hend] at hsteps hall
    have hdone : List.Forall₂ Enters p.middlewares entered := hall.mp rfl
    obtain ⟨examined, hvisits, hexamined, hends⟩ := examine_steps 0 p.calls f'
    -- without a suitable call, what the exits are pushed for is an exception
    have huncalled {exited : Bool} {e : Thrown}
        (hnone : ∀ h message, ¬FirstSuitable p.calls examined h message)
        (htorn : exited = false ↔ ∃ e, Escapes p.calls examined e) :
        p.Keeps ⟨entered, examined, none, [], exited⟩ (.error e) :=
      { entered := hentered
        examined := fun _ => hvisits
        unexamined := fun h => absurd hdone h
        called := by simp
        uncalled := fun _ => ⟨rfl, hnone⟩
        torn := by simpa [hdone] using htorn
        raised := fun _ => ⟨e, rfl⟩
        returned := by simp }
    split
    · rename_i e f'' hend'
      rw [hend'] at hexamined hends
      obtain ⟨hbase, h, s, hlast, hraised⟩ := hends
      refine ⟨⟨entered, examined, none, [], false⟩, rfl, huncalled ?_ ?_, ?_⟩
      · intro h' message hfirst
        obtain ⟨s', hlast', hsuitable⟩ := hfirst.suitable
        obtain ⟨rfl, rfl⟩ := hlast.unique hlast'
        exact nomatch hraised.symm.trans hsuitable
      · simpa using ⟨e, hbase, h, s, hlast, hraised⟩
      · rw [hexamined, hsteps]
        simp
    · rename_i e f'' hend'
      rw [hend'] at hexamined hends
      obtain ⟨hexception, h, s, hlast, hraised⟩ := hends
      refine ⟨⟨entered, examined, none, [], true⟩, rfl, huncalled ?_ ?_, ?_⟩
      · intro h' message hfirst
        obtain ⟨s', hlast', hsuitable⟩ := hfirst.suitable
        obtain ⟨rfl, rfl⟩ := hlast.unique hlast'
        exact nomatch hraised.symm.trans hsuitable
      · refine ⟨fun h => (nomatch h), fun ⟨e', hbase, h', s', hlast', hraised'⟩ => ?_⟩
        obtain ⟨rfl, rfl⟩ := hlast.unique hlast'
        obtain rfl := Except.error.inj (hraised.symm.trans hraised')
        simp [hexception] at hbase
      · rw [hexamined, hsteps]
        simp
    · rename_i f'' hend'
      rw [hend'] at hexamined hends
      refine ⟨⟨entered, examined, none, [], true⟩, rfl, huncalled ?_ ?_, ?_⟩
      · intro h message hfirst
        obtain ⟨s, hlast, hsuitable⟩ := hfirst.suitable
        exact nomatch (hlast.unsuitable hends).symm.trans hsuitable
      · refine ⟨fun h => (nomatch h), fun ⟨e, _, h, s, hlast, hraised⟩ => ?_⟩
        exact nomatch (hlast.unsuitable hends).symm.trans hraised
      · rw [hexamined, hsteps]
        simp
    · rename_i call h message f'' hend'
      rw [hend'] at hexamined hends
      obtain ⟨hcall, s, hlast, hsuitable⟩ := hends
      obtain ⟨published, hhandled, hhandles, hdelivers⟩ := handle_steps call h message f''
      have hfirst : FirstSuitable p.calls examined h message :=
        { suitable := ⟨s, hlast, hsuitable⟩
          earlier := fun j s' hj hs' => hvisits.goesOn_of_lt hj hs' }
      refine ⟨⟨entered, examined, some f''.state, published, true⟩, rfl, ?_, ?_⟩
      · exact
          { entered := hentered
            examined := fun _ => hvisits
            unexamined := fun h => absurd hdone h
            called := fun s' hs' => by
              obtain rfl := Option.some.inj hs'
              exact ⟨h, message, hfirst, hhandles⟩
            uncalled := by simp
            torn := by
              refine ⟨fun h => (nomatch h), fun htorn => ?_⟩
              obtain hstopped | ⟨e, _, h', s', hlast', hraised⟩ := htorn
              · exact absurd hdone hstopped
              · obtain ⟨rfl, rfl⟩ := hlast.unique hlast'
                exact nomatch hsuitable.symm.trans hraised
            raised := by simp
            returned := fun result hresult => by
              refine ⟨h, message, f''.state, hfirst, rfl, hdelivers result ?_⟩
              revert hresult
              cases (p.handle call h message f'').1 <;> simp [Except.map] }
      · rw [hhandled, hexamined, hsteps, hcall]
        simp

/-- What unwinding does to the end of the body. -/
theorem Keeps.unwound {c : Course σ β} {out out' : Except Thrown (Option (Result β))}
    (h : p.Keeps c out) (hreturned : ∀ result, out' = .ok (some result) → out = .ok (some result))
    (htorn : c.exited = false → out' = out) : p.Keeps c out' :=
  { h with
    raised := fun hexited => htorn hexited ▸ h.raised hexited
    returned := fun result hresult => h.returned result (hreturned result hresult) }

/-- The exits leave one step each, the last middleware first. -/
theorem exits_steps (ms : List (Middleware σ β)) (pending : Option Thrown) (f : Frame σ β) :
    (unwind (ms.zipIdx.reverse.map exitOf) pending f).2.steps =
      f.steps ++ (List.range' 0 ms.length).reverse.map .exiting := by
  have hlog := unwind_log Frame.steps exitOf (fun m => .exiting m.2)
    (fun m pending f => by simp [exitOf]) ms.zipIdx.reverse pending f
  have hindices : ms.zipIdx.map Prod.snd = List.range' 0 ms.length := by
    rw [List.zipIdx_map_snd]
  rw [hlog, ← hindices, ← List.map_reverse, List.map_map]
  rfl

/-- The lock is given back last, and lets an exception pass. -/
theorem unwind_release (stack : List (Callback (Frame σ β) Thrown)) (pending : Option Thrown)
    (f : Frame σ β) :
    unwind (stack ++ [release]) pending f =
      ((unwind stack pending f).1, (unwind stack pending f).2.note .unlocked) := by
  rw [unwind_append]
  rfl

end Pipeline

/-- **The course of a message.** Whatever the code of others does and raises, the record of
    `process_message` is that of a course, kept to by what it returns or raises. `consume`
    leaves no other record, and lets no `Exception` out but `_OutboxConfigError`. -/
theorem process_message_course (p : Pipeline σ β) (f : Frame σ β) :
    (∃ c : Course σ β, p.Keeps c (p.processMessage f).1 ∧
      (p.processMessage f).2.steps = f.steps ++ c.steps p.middlewares.length) ∧
    ∀ running, (p.consume running f).1 ≠ .exception ∧
      (p.consume running f).2 = if running then (p.processMessage f).2 else f := by
  constructor
  · obtain ⟨c, hpushed, hkeeps, hsteps⟩ := p.body_steps (f.note .locked)
    refine ⟨c, ?_⟩
    simp only [Pipeline.processMessage]
    generalize p.body (f.note .locked) = r at hpushed hkeeps hsteps
    obtain ⟨result, pushed, f'⟩ := r
    simp only at hpushed hkeeps hsteps
    subst hpushed
    rw [Pipeline.unwind_release]
    refine ⟨hkeeps.unwound ?_ ?_, ?_⟩
    · intro response hresponse
      split at hresponse
      · simp at hresponse
      · cases result with
        | ok r => exact hresponse
        | error e => simp [Except.toOption] at hresponse
    · -- nothing was pushed on top of the lock
      intro hexited
      cases result <;> simp [hexited, Except.map, Except.toOption]
    · cases hexited : c.exited with
      | false => simp [Course.steps, hexited, hsteps]
      | true =>
        simp only [if_true, Frame.note_steps]
        rw [Pipeline.exits_steps, hsteps]
        simp [Course.steps, hexited]
  · intro running
    unfold Pipeline.consume
    cases running with
    | false => exact ⟨by simp, rfl⟩
    | true =>
      refine ⟨?_, rfl⟩
      simp only [Bool.not_true, Bool.false_eq_true, if_false]
      split <;> simp

end Outbox.OutboxSubscriber
