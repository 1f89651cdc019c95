import Floatile.Lib.Channel
import Floatile.Lib.Transition
import Floatile.Renderer.Controls
import Floatile.Shell.RuntimeUi

/-! The way of an input event from the window of a plugin to its instance. The callbacks of the
generated component carry no arguments, so the payload of the document is not on that way. -/
namespace Floatile.Shell

open Floatile.Lib
open Floatile.Lib.Checked (reject bind_eq_ok check_bind_eq_ok reject_eq_ok)
open Floatile.Lib.Transition
open Floatile.Core
open Floatile.UiSchema
open Floatile.Renderer

/-- The values of the interpreter; the other ones are shown as they are debugged. -/
inductive UiValue where
  | string (s : String)
  | number (n : Float)
  | bool (b : Bool)
  | void
  | other (debug : String)

def serializeCallbackArg : UiValue → Json
  | .string s => .string s
  | .number n => if n.isFinite then .number (.float n) else .null
  | .bool b => .bool b
  | .void => .null
  | .other debug => .string debug

def serializeCallbackArgs (args : List UiValue) : List Json := args.map serializeCallbackArg

/-- The parts of the JSON library that the events use. -/
structure EventJson where
  toString : List Json → Option String
  fromStr : String → Option Json

/-- The library writes and reads the empty array. -/
structure EventJson.Documented (json : EventJson) : Prop where
  toString_nil : json.toString [] = some "[]"
  fromStr_nil : json.fromStr "[]" = some (.array [])

/-- What the shell uses of the interpreter: the callbacks that a compiled source declares, and the
call that a click on an element makes, with the values of its arguments. -/
structure Interpreter where
  declares : String → String → Bool
  clicked : String → Option (String × List UiValue)

/-- The text of a leaf in the source. -/
def leafText (leaf : Component × List Piece) : String := textOf [.leaf leaf.1 leaf.2]

/-- The callbacks of a rendered document are declared in its source, and a handler calls the
callback that it names with the arguments that it lists, which are none. -/
structure Interpreter.Documented (interp : Interpreter) (r : RenderedComponent) : Prop where
  declares : ∀ slot ∈ r.events, interp.declares r.source slot.callback = true
  clicked : ∀ leaf ∈ leavesList r.markup, ∀ slot, ClickCalls leaf.2 slot →
    interp.clicked (leafText leaf) = some (slot.callback,[])

/-- The callbacks that are set, each with the event that it announces. -/
abbrev Handlers := OrdMap String String

section Window

variable (json : EventJson) (interp : Interpreter) (source : String)

def setCallback (handlers : Handlers) (slot : EventSlot) : Except RuntimeUiError Handlers := do
  reject (!interp.declares source slot.callback) (.callback s!"{slot.callback}: NoSuchCallback")
  .ok (handlers.insert slot.callback slot.event)

def registerEvents (events : List EventSlot) : Except RuntimeUiError Handlers :=
  events.foldlM (setCallback interp source) OrdMap.empty

def callbackPayload (args : List UiValue) : String :=
  (json.toString (serializeCallbackArgs args)).getD "[]"

end Window

structure UiEvent where
  name : String
  payloadJson : String
  deriving DecidableEq, Repr

inductive EventEnqueueOutcome where
  | enqueued
  | droppedFull
  | closed
  deriving DecidableEq, Repr

def eventQueueCapacity : ℕ := 64

def eventBatchSize : ℕ := 8

/-- The callbacks that are set, the events on their way, the counts of dropped ones, and what was
handed to the instance. -/
structure EventBridge where
  handlers : Handlers
  events : Channel (String × String)
  dropped : ℕ
  audited : List ℕ
  delivered : List UiEvent

namespace EventBridge

def new (handlers : Handlers) : EventBridge :=
  ⟨handlers,Channel.empty eventQueueCapacity,0,[],[]⟩

/-- A full queue drops the event and counts it. -/
def trySend (b : EventBridge) (name payload : String) : EventEnqueueOutcome × EventBridge :=
  match b.events.trySend (name,payload) with
  | .ok events => (.enqueued,{ b with events := events })
  | .error .full => (.droppedFull,{ b with dropped := b.dropped + 1 })
  | .error .closed => (.closed,b)

section Steps

variable (json : EventJson) (interp : Interpreter)

/-- The handler of a callback, if one is set. -/
def invoke (b : EventBridge) (callback : String) (args : List UiValue) : EventBridge :=
  match b.handlers.get callback with
  | some name => (b.trySend name (callbackPayload json args)).2
  | none => b

def click (b : EventBridge) (element : String) : EventBridge :=
  match interp.clicked element with
  | some (callback,args) => b.invoke json callback args
  | none => b

/-- The dropped events are reported once, as a number. -/
def flushOverload (b : EventBridge) : EventBridge :=
  if b.dropped = 0 then b
  else { b with dropped := 0, audited := b.audited ++ [b.dropped] }

/-- The oldest event is handed to the instance. -/
def forward (b : EventBridge) : EventBridge :=
  match b.events.recv with
  | some ((name,payload),events) =>
    { b with events := events, delivered := b.delivered ++ [⟨name,payload⟩] }
  | none => b

/-- The worker reports the dropped events and forwards a batch. -/
def turn (b : EventBridge) : EventBridge := forward^[eventBatchSize] b.flushOverload

/-- The worker ends and drops its end of the queue. -/
def stop (b : EventBridge) : EventBridge :=
  { b.flushOverload with events := b.events.close }

/-- The worker forwards everything that is on its way. -/
def drain (b : EventBridge) : EventBridge := forward^[b.events.queue.length] b

end Steps

/-- What was handed to the instance and what is on its way to it. -/
def announced (b : EventBridge) : List UiEvent :=
  b.delivered ++ b.events.queue.map (fun e => ⟨e.1,e.2⟩)

variable (b : EventBridge)

@[simp] theorem announced_new (handlers : Handlers) : (new handlers).announced = [] := rfl

@[simp] theorem announced_flushOverload : b.flushOverload.announced = b.announced := by
  unfold flushOverload
  split_ifs <;> rfl

@[simp] theorem handlers_flushOverload : b.flushOverload.handlers = b.handlers := by
  unfold flushOverload
  split_ifs <;> rfl

theorem forward_cases : b.events.queue = [] ∧ b.forward = b ∨
    ∃ e rest, b.events.queue = e :: rest ∧ b.forward.events.queue = rest ∧
      b.forward.delivered = b.delivered ++ [⟨e.1,e.2⟩] ∧ b.forward.handlers = b.handlers := by
  unfold forward
  split
  · rename_i name payload events hrecv
    obtain ⟨hqueue,-⟩ := Channel.queue_of_recv hrecv
    exact Or.inr ⟨(name,payload),events.queue,hqueue,rfl,rfl,rfl⟩
  · rename_i hrecv
    exact Or.inl ⟨(Channel.recv_eq_none_iff _).mp hrecv,rfl⟩

@[simp] theorem announced_forward : b.forward.announced = b.announced := by
  obtain ⟨-,hsame⟩ | ⟨e,rest,hqueue,hrest,hdelivered,-⟩ := b.forward_cases
  · rw [hsame]
  · rw [announced, announced, hqueue, hrest, hdelivered, List.map_cons, List.append_assoc,
      List.singleton_append]

@[simp] theorem handlers_forward : b.forward.handlers = b.handlers := by
  obtain ⟨-,hsame⟩ | ⟨e,rest,-,-,-,hhandlers⟩ := b.forward_cases
  · rw [hsame]
  · exact hhandlers

theorem announced_iterate (n : ℕ) : (forward^[n] b).announced = b.announced := by
  induction n generalizing b with
  | zero => rfl
  | succ n ih => rw [Function.iterate_succ_apply, ih, announced_forward]

theorem handlers_iterate (n : ℕ) : (forward^[n] b).handlers = b.handlers := by
  induction n generalizing b with
  | zero => rfl
  | succ n ih => rw [Function.iterate_succ_apply, ih, handlers_forward]

/-- Forwarding as often as there are events leaves none on its way. -/
theorem queue_iterate (n : ℕ) (h : b.events.queue.length ≤ n) :
    (forward^[n] b).events.queue = [] := by
  induction n generalizing b with
  | zero => exact List.length_eq_zero_iff.mp (Nat.le_zero.mp h)
  | succ n ih =>
    rw [Function.iterate_succ_apply]
    obtain ⟨hempty,hsame⟩ | ⟨e,rest,hqueue,hrest,-,-⟩ := b.forward_cases
    · rw [hsame]
      exact ih b (by simp [hempty])
    · refine ih _ ?_
      rw [hqueue, List.length_cons] at h
      rw [hrest]
      omega

/-- Everything that was announced reaches the instance, once and in order. -/
theorem delivered_drain : b.drain.delivered = b.announced := by
  have hannounced := announced_iterate b b.events.queue.length
  rw [announced, queue_iterate b _ (Nat.le_refl _), List.map_nil, List.append_nil] at hannounced
  exact hannounced

theorem trySend_of_hasRoom (h : b.events.HasRoom) (name payload : String) :
    (b.trySend name payload).2.announced = b.announced ++ [⟨name,payload⟩] := by
  rw [trySend, Channel.trySend_of_hasRoom _ h]
  simp [announced]

theorem trySend_of_not_hasRoom (h : ¬b.events.HasRoom) (name payload : String) :
    (b.trySend name payload).2.announced = b.announced := by
  obtain ⟨e,he⟩ := Channel.trySend_of_not_hasRoom _ h (name,payload)
  rw [trySend, he]
  cases e <;> rfl

@[simp] theorem handlers_trySend (name payload : String) :
    (b.trySend name payload).2.handlers = b.handlers := by
  unfold trySend
  split <;> rfl

end EventBridge

section Registration

variable {interp : Interpreter} {source : String}

theorem setCallback_eq_ok {handlers handlers' : Handlers} {slot : EventSlot} :
    setCallback interp source handlers slot = .ok handlers' ↔
      interp.declares source slot.callback = true ∧
        handlers.insert slot.callback slot.event = handlers' := by
  simp only [setCallback, check_bind_eq_ok, reject_eq_ok, Except.ok.injEq, Bool.not_eq_true',
    Bool.not_eq_false]

/-- A callback announces the event of its slot when no other event has it. -/
theorem get_of_setCallbacks {events : List EventSlot} {handlers handlers' : Handlers}
    {callback event : String} (h : events.foldlM (setCallback interp source) handlers =
      .ok handlers') (hsame : ∀ slot ∈ events, slot.callback = callback → slot.event = event)
    (hset : handlers.get callback = some event ∨ ∃ slot ∈ events, slot.callback = callback) :
    handlers'.get callback = some event := by
  induction events generalizing handlers with
  | nil =>
    cases h
    exact hset.resolve_right (by simp)
  | cons slot events ih =>
    rw [List.foldlM_cons] at h
    obtain ⟨handlers₁,hslot,h⟩ := bind_eq_ok.mp h
    obtain ⟨-,rfl⟩ := setCallback_eq_ok.mp hslot
    obtain ⟨hfirst,hrest⟩ := List.forall_mem_cons.mp hsame
    refine ih h hrest ?_
    by_cases hcallback : slot.callback = callback
    · left
      rw [hcallback, hfirst hcallback, OrdMap.get_insert_self]
    · rcases hset with hold | ⟨slot',hslot',hsame'⟩
      · left
        rw [OrdMap.get_insert_of_ne _ (Ne.symm hcallback)]
        exact hold
      · right
        rcases List.mem_cons.mp hslot' with rfl | hmem
        · exact absurd hsame' hcallback
        · exact ⟨slot',hmem,hsame'⟩

theorem setCallbacks_ok {events : List EventSlot}
    (h : ∀ slot ∈ events, interp.declares source slot.callback = true) (handlers : Handlers) :
    ∃ handlers', events.foldlM (setCallback interp source) handlers = .ok handlers' := by
  induction events generalizing handlers with
  | nil => exact ⟨handlers,rfl⟩
  | cons slot events ih =>
    obtain ⟨hslot,hrest⟩ := List.forall_mem_cons.mp h
    obtain ⟨handlers',hok⟩ := ih hrest (handlers.insert slot.callback slot.event)
    refine ⟨handlers',?_⟩
    rw [List.foldlM_cons]
    exact bind_eq_ok.mpr ⟨_,setCallback_eq_ok.mpr ⟨hslot,rfl⟩,hok⟩

end Registration

inductive BridgeLabel where
  | click (leaf : Component × List Piece)
  | turn
  | stop

section Runs

variable (json : EventJson) (interp : Interpreter)

def EventBridge.next (b : EventBridge) : BridgeLabel → EventBridge
  | .click leaf => b.click json interp (leafText leaf)
  | .turn => b.turn
  | .stop => b.stop

def bridgeSystem (r : RenderedComponent) : System EventBridge BridgeLabel :=
  System.ofFunction (fun b => ∃ handlers, registerEvents interp r.source r.events = .ok handlers ∧
    b = .new handlers) (EventBridge.next json interp)

variable {json interp} {lib : JsonLib} {doc : UiDocument} {r : RenderedComponent}
  {body : List Markup} {ctx : Ctx} {b : EventBridge}

theorem EventBridge.handlers_next (b : EventBridge) (label : BridgeLabel) :
    (b.next json interp label).handlers = b.handlers := by
  cases label with
  | click leaf =>
    rw [EventBridge.next, EventBridge.click]
    split
    · rw [EventBridge.invoke]
      split
      · exact b.handlers_trySend _ _
      · rfl
    · rfl
  | turn =>
    rw [EventBridge.next, EventBridge.turn, EventBridge.handlers_iterate]
    exact b.handlers_flushOverload
  | stop => exact b.handlers_flushOverload

/-- The callbacks stay those of the registration. -/
theorem registered_of_reachable (h : (bridgeSystem json interp r).Reachable b) :
    registerEvents interp r.source r.events = .ok b.handlers := by
  refine System.ReachableWhen.invariant
    (fun b => registerEvents interp r.source r.events = .ok b.handlers) ?_ ?_ h
  · rintro b ⟨handlers,hregistered,rfl⟩
    exact hregistered
  · rintro b label b' hregistered - rfl
    rw [EventBridge.handlers_next]
    exact hregistered

/-- A click on a control announces its event with an empty list of arguments, when there is room. -/
theorem announced_click (hjson : json.Documented) (hinterp : interp.Documented r)
    (h : Rendering lib doc r body ctx) (hreach : (bridgeSystem json interp r).Reachable b)
    (c : Control doc) {pieces : List Piece} (hpieces : (c.comp,pieces) ∈ leavesList r.markup) :
    (b.click json interp (leafText (c.comp,pieces))).announced =
      b.announced ++ if b.events.HasRoom then [⟨c.emitted.emit,"[]"⟩] else [] := by
  obtain ⟨-,slot,hslot,hevent,hcalls⟩ := h.control_calls c
  have hclicked := hinterp.clicked _ hpieces slot (hcalls pieces hpieces)
  have hget : b.handlers.get slot.callback = some slot.event := by
    refine get_of_setCallbacks (registered_of_reachable hreach) (fun slot' hslot' heq => ?_)
      (Or.inr ⟨slot,hslot,rfl⟩)
    rw [h.callback_injective hslot' hslot heq]
  have hpayload : callbackPayload json [] = "[]" := by
    rw [callbackPayload, serializeCallbackArgs, List.map_nil, hjson.toString_nil, Option.getD_some]
  simp only [EventBridge.click, hclicked, EventBridge.invoke, hget, hpayload, hevent]
  split_ifs with hroom
  · exact b.trySend_of_hasRoom hroom _ _
  · rw [List.append_nil]
    exact b.trySend_of_not_hasRoom hroom _ _

section Declared

variable (json interp doc r b)

/-- A click on the control hands one event to the instance, after everything that is on its way,
with the name and the payload that the control is bound to. -/
def Delivers (c : Control doc) : Prop :=
  ∀ pieces, (c.comp,pieces) ∈ leavesList r.markup →
    ∃ payload, json.fromStr payload = some c.emitted.payload ∧
      (b.click json interp (leafText (c.comp,pieces))).drain.delivered =
        b.drain.delivered ++ [⟨c.emitted.emit,payload⟩]

/-- The events of all controls arrive as they are bound, and different payloads make different
events. -/
structure EventsAsDeclared : Prop where
  delivers : ∀ c : Control doc, Delivers json interp doc r b c
  declared : ∀ c : Control doc, ∃ declared, doc.events.get c.emitted.emit = some declared ∧
    Meets declared.payload c.emitted.payload
  distinct : ∀ c c' : Control doc, c.emitted.emit = c'.emitted.emit →
    c.emitted.payload ≠ c'.emitted.payload →
    ∀ pieces pieces', (c.comp,pieces) ∈ leavesList r.markup →
      (c'.comp,pieces') ∈ leavesList r.markup →
      (b.click json interp (leafText (c.comp,pieces))).drain.delivered ≠
        (b.click json interp (leafText (c'.comp,pieces'))).drain.delivered

end Declared

/-- The bound payload arrives exactly when it is the empty list and the queue has room. -/
theorem delivers_iff (hjson : json.Documented) (hinterp : interp.Documented r)
    (h : Rendering lib doc r body ctx) (hreach : (bridgeSystem json interp r).Reachable b)
    (c : Control doc) : Delivers json interp doc r b c ↔
      b.events.HasRoom ∧ c.emitted.payload = .array [] := by
  have hclick {pieces : List Piece} (hpieces : (c.comp,pieces) ∈ leavesList r.markup) :=
    announced_click hjson hinterp h hreach c hpieces
  constructor
  · intro hdelivers
    obtain ⟨⟨pieces,hpieces⟩,-⟩ := h.control_calls c
    obtain ⟨payload,hread,hdelivered⟩ := hdelivers pieces hpieces
    rw [EventBridge.delivered_drain, EventBridge.delivered_drain, hclick hpieces,
      List.append_cancel_left_eq] at hdelivered
    split_ifs at hdelivered with hroom
    obtain rfl : "[]" = payload := by simpa using hdelivered
    rw [hjson.fromStr_nil] at hread
    exact ⟨hroom,(Option.some.inj hread).symm⟩
  · rintro ⟨hroom,hpayload⟩ pieces hpieces
    refine ⟨"[]",by rw [hjson.fromStr_nil, hpayload],?_⟩
    rw [EventBridge.delivered_drain, EventBridge.delivered_drain, hclick hpieces,
      if_pos hroom]

end Runs

/-- In every reachable state of a window, the events of its controls arrive as they are declared
exactly when every control is bound to the empty list and the queue has room for its event. -/
theorem eventsAsDeclared_iff {json : EventJson} {interp : Interpreter} {lib : JsonLib}
    {doc : UiDocument} {r : RenderedComponent} {b : EventBridge} (hjson : json.Documented)
    (hinterp : interp.Documented r) (h : renderComponent lib doc = .ok r)
    (hreach : (bridgeSystem json interp r).Reachable b) :
    EventsAsDeclared json interp doc r b ↔
      ∀ c : Control doc, b.events.HasRoom ∧ c.emitted.payload = .array [] := by
  obtain ⟨body,ctx,hrendering⟩ := rendering_of_ok h
  have hiff := delivers_iff hjson hinterp hrendering hreach
  constructor
  · intro hdeclared c
    exact (hiff c).mp (hdeclared.delivers c)
  · intro hall
    refine ⟨fun c => (hiff c).mpr (hall c),hrendering.emitted_meets,?_⟩
    intro c c' _ hpayload
    exact absurd ((hall c).2.trans (hall c').2.symm) hpayload

/-- A button that emits the event `select`. -/
def selectButton (label : String) (payload : Json) : Component :=
  { plainComponent "Button" with
    props := OrdMap.ofList [("label",.literal (.string label))]
    events := OrdMap.ofList [("activate",⟨"select",payload⟩)] }

/-- A column of buttons for the event `select`. -/
def selectDocument (schema : JsonSchema) (buttons : List (String × Json)) : UiDocument where
  uiApiVersion := "1.0.0"
  state := ⟨.object [],.object [] [] false⟩
  events := OrdMap.ofList [("select",⟨schema⟩)]
  root := { plainComponent "Column" with children := buttons.map fun e => selectButton e.1 e.2 }

/-- The JSON library on a document of the given size. -/
def selectLib (bytes : ℕ) : JsonLib := ⟨fun _ => .ok bytes,fun _ => ""⟩

def selectJson : EventJson where
  toString items := if items.isEmpty then some "[]" else none
  fromStr text := if text = "[]" then some (.array []) else none

theorem selectJson_documented : selectJson.Documented := ⟨rfl,rfl⟩

/-- The interpreter on a component all of whose elements call `emit_0`. -/
def selectInterpreter : Interpreter where
  declares _ callback := callback == "emit_0"
  clicked _ := some ("emit_0",[])

section Select

variable {schema : JsonSchema} {buttons : List (String × Json)} {bytes : ℕ} {r : RenderedComponent}

theorem nodes_select : nodes (selectDocument schema buttons).root =
    (selectDocument schema buttons).root :: buttons.map fun e => selectButton e.1 e.2 := by
  have hshape : shapeOf (selectDocument schema buttons).root = .container := rfl
  rw [nodes_container hshape]
  congr 1
  induction buttons with
  | nil => rfl
  | cons e buttons ih =>
    have hbutton : nodes (selectButton e.1 e.2) = [selectButton e.1 e.2] := nodes_leaf rfl
    rw [selectDocument, List.map_cons, nodesChildren, hbutton, List.singleton_append]
    exact congrArg _ (ih rfl)

/-- The controls of the document are its buttons. -/
theorem select_control (c : Control (selectDocument schema buttons)) :
    ∃ e ∈ buttons, c.comp = selectButton e.1 e.2 ∧ c.emitted = ⟨"select",e.2⟩ := by
  have hmem := c.mem
  have hkind := c.kind
  have hbound := c.bound
  rw [nodes_select, List.mem_cons] at hmem
  rcases hmem with hroot | hbutton
  · rw [hroot] at hkind
    cases hkind
  · obtain ⟨e,he,hcomp⟩ := List.mem_map.mp hbutton
    rw [← hcomp] at hkind hbound
    have hinput : c.input = "activate" := (Option.some.inj hkind).symm
    rw [hinput] at hbound
    exact ⟨e,he,hcomp.symm,(Option.some.inj hbound).symm⟩

/-- A button of the document as a control. -/
def selectControl {e : String × Json} (he : e ∈ buttons) :
    Control (selectDocument schema buttons) where
  comp := selectButton e.1 e.2
  input := "activate"
  emitted := ⟨"select",e.2⟩
  mem := by
    rw [nodes_select]
    exact List.mem_cons_of_mem _ (List.mem_map.mpr ⟨e,he,rfl⟩)
  kind := rfl
  bound := rfl

theorem select_documented
    (h : renderComponent (selectLib bytes) (selectDocument schema buttons) = .ok r)
    (hevents : r.events = [⟨"select","emit_0"⟩]) : selectInterpreter.Documented r := by
  obtain ⟨body,ctx,hrendering⟩ := rendering_of_ok h
  constructor
  · rw [hevents]
    intro slot hslot
    obtain rfl := List.mem_singleton.mp hslot
    rfl
  · rintro ⟨comp,pieces⟩ hleaf slot hcalls
    obtain ⟨hmem,hshape⟩ := (hrendering.leavesOf.mem_iff comp).mp ⟨pieces,hleaf⟩
    rw [nodes_select, List.mem_cons] at hmem
    rcases hmem with rfl | hbutton
    · cases hshape
    · obtain ⟨e,he,rfl⟩ := List.mem_map.mp hbutton
      obtain ⟨-,slot',hslot',-,hcalls'⟩ := hrendering.control_calls (selectControl he)
      obtain rfl := hcalls.unique (hcalls' pieces hleaf)
      rw [hevents] at hslot'
      obtain rfl := List.mem_singleton.mp hslot'
      rfl

/-- The window of the document is opened with its callback set. -/
theorem select_opened (hinterp : selectInterpreter.Documented r) :
    ∃ b, (bridgeSystem selectJson selectInterpreter r).Reachable b ∧ b.events.HasRoom := by
  obtain ⟨handlers,hregistered⟩ := setCallbacks_ok hinterp.declares OrdMap.empty
  exact ⟨.new handlers,System.ReachableWhen.of_init ⟨handlers,hregistered,rfl⟩,by
    simp [Channel.HasRoom, EventBridge.new, Channel.empty, eventQueueCapacity]⟩

end Select

def refreshDocument : UiDocument :=
  selectDocument (.array (some 4) .boolean) [("Refresh",.array [])]

def switchesDocument : UiDocument :=
  selectDocument .boolean [("On",.bool true),("Off",.bool false)]

theorem select_rendered (doc : UiDocument) (bytes : ℕ)
    (h : (renderComponent (selectLib bytes) doc).toOption.map RenderedComponent.events =
      some [⟨"select","emit_0"⟩]) :
    ∃ r, renderComponent (selectLib bytes) doc = .ok r ∧ r.events = [⟨"select","emit_0"⟩] := by
  obtain ⟨r,hr,hevents⟩ := Option.map_eq_some_iff.mp h
  exact ⟨r,Checked.toOption_eq_some.mp hr,hevents⟩

/-- A button without a payload of its own. -/
theorem refresh_declared : ∃ r, renderComponent (selectLib 361) refreshDocument = .ok r ∧
    ∃ b, (bridgeSystem selectJson selectInterpreter r).Reachable b ∧
      EventsAsDeclared selectJson selectInterpreter refreshDocument r b := by
  obtain ⟨r,hr,hevents⟩ := select_rendered refreshDocument 361 (by decide +kernel)
  have hinterp := select_documented hr hevents
  obtain ⟨b,hreach,hroom⟩ := select_opened hinterp
  refine ⟨r,hr,b,hreach,(eventsAsDeclared_iff selectJson_documented hinterp hr hreach).mpr ?_⟩
  intro c
  obtain ⟨e,he,-,hemitted⟩ := select_control c
  obtain rfl := List.mem_singleton.mp he
  exact ⟨hroom,by rw [hemitted]⟩

/-- Two buttons for the two values of a switch announce the same event. -/
theorem switches_indistinct : ∃ r, renderComponent (selectLib 417) switchesDocument = .ok r ∧
    ∃ b, (bridgeSystem selectJson selectInterpreter r).Reachable b ∧ b.events.HasRoom ∧
      (∀ c c' : Control switchesDocument, ∀ pieces pieces',
        (c.comp,pieces) ∈ leavesList r.markup → (c'.comp,pieces') ∈ leavesList r.markup →
        (b.click selectJson selectInterpreter (leafText (c.comp,pieces))).drain.delivered =
          (b.click selectJson selectInterpreter (leafText (c'.comp,pieces'))).drain.delivered) ∧
      ¬EventsAsDeclared selectJson selectInterpreter switchesDocument r b := by
  obtain ⟨r,hr,hevents⟩ := select_rendered switchesDocument 417 (by decide +kernel)
  have hinterp := select_documented hr hevents
  obtain ⟨b,hreach,hroom⟩ := select_opened hinterp
  obtain ⟨body,ctx,hrendering⟩ := rendering_of_ok hr
  have hclick (c : Control switchesDocument) {pieces : List Piece}
      (hpieces : (c.comp,pieces) ∈ leavesList r.markup) :
      (b.click selectJson selectInterpreter (leafText (c.comp,pieces))).drain.delivered =
        b.announced ++ [⟨"select","[]"⟩] := by
    obtain ⟨e,-,-,hemitted⟩ := select_control c
    rw [EventBridge.delivered_drain,
      announced_click selectJson_documented hinterp hrendering hreach c hpieces, if_pos hroom,
      hemitted]
  refine ⟨r,hr,b,hreach,hroom,fun c c' pieces pieces' hpieces hpieces' => ?_,fun hdeclared => ?_⟩
  · rw [hclick c hpieces, hclick c' hpieces']
  · have hon := hdeclared.delivers (selectControl List.mem_cons_self)
    have hempty := ((delivers_iff selectJson_documented hinterp hrendering hreach _).mp hon).2
    cases hempty

end Floatile.Shell
