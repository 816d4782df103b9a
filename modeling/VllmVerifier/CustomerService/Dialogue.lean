import VllmVerifier.CustomerService.Actions

/-!
`dialogue.py`: frames, slot filling, corrections and confirmation gates. A turn
changes the conversation also where it raises. Frames are objects in the source;
here each carries the number under which it was made.
-/

set_option autoImplicit false

namespace VllmVerifier.CustomerService

open Python

/-! ## Frames -/

inductive Phase where
  | collecting
  | confirming
  | completed
deriving DecidableEq

structure Frame where
  serial : Nat
  intent : Catalogued
  slots : Dict Slot Str
  phase : Phase

def Frame.missing (frame : Frame) : List Slot :=
  frame.intent.val.requiredSlots.filter fun slot => (frame.slots.get? slot).isNone

structure Reply where
  text : Str
  cards : List Card
  suggestions : List Str

inductive ChatMessage where
  | user (text : Str)
  | assistant (reply : Reply)

structure Conversation where
  active : Option Frame
  suspended : List Frame
  lastCompleted : Option Frame
  choices : List Catalogued
  clarificationText : Str
  messages : List ChatMessage
  store : DemoStore
  turn : Nat
  /-- How many frames were made. -/
  created : Nat

def freshConversation : Conversation := ⟨none, [], none, [], [], [], freshStore, 0, 0⟩

structure Classification where
  intent : Option Catalogued
  candidates : List Catalogued

/-- The arguments of a turn, with what the classifier does when it is asked. -/
structure Utterance where
  text : Str
  selectedIntent : Option Str
  classify : Str → Str → Except PyException Classification

/-- What a turn returns or raises, and the conversation that it leaves. -/
abbrev Turn := Except PyException Reply × Conversation

/-! ## Words -/

def yesWords : List Str := [lit "네", lit "예", lit "응", lit "좋아", lit "확인", lit "진행",
  lit "진행해", lit "진행해줘", lit "동의", lit "yes", lit "확인했어"]

def noWords : List Str := [lit "아니", lit "아니요", lit "아냐", lit "안할래", lit "취소",
  lit "그만", lit "cancel"]

def resumeWords : List Str := [lit "이어서", lit "계속", lit "아까거", lit "이전문의",
  lit "이전문의계속", lit "resume"]

/-- `REFER`. -/
def referWords : List Str := [lit "그 주문", lit "그 상품", lit "그거", lit "아까", lit "같은 주문",
  lit "같은 상품", lit "이 상품"]

def thanksWords : List Str := [lit "고마워", lit "감사합니다", lit "고마워요", lit "감사",
  lit "thanks"]

def refers (text : Str) : Bool := referWords.any (Str.contains · text)

/-! ## Replies -/

/-- `items[-count:]`. -/
def lastItems {α : Type} (count : Nat) (items : List α) : List α := items.drop (items.length - count)

def reply (state : Conversation) (text : Str) (cards : List Card) (suggestions : List Str) : Turn :=
  let entry : Reply := ⟨text, cards, suggestions⟩
  (.ok entry, { state with messages := lastItems 30 (state.messages ++ [.assistant entry]) })

def finish (state : Conversation) (text : Str) (cards : List Card) : Turn :=
  match state.active with
  | none => (.error .assertionError, state)
  | some frame =>
      let state := { state with
        lastCompleted := some { frame with phase := .completed }
        active := none }
      reply state text cards (if state.suspended.isEmpty then [] else [lit "이어서"])

/-- `" / ".join(...)` of the labels and the values of the slots. -/
def summary (slots : Dict Slot Str) : Str :=
  List.intercalate (lit " / ")
    (slots.entries.map fun entry => entry.1.contract.label ++ lit ": " ++ entry.2)

def confirmationText (intent : Intent) (slots : Dict Slot Str) : Str :=
  intent.label ++ lit "\n" ++ summary slots ++ lit "\n이 내용으로 데모 접수할까요? " ++
    lit "실제 주문 변경이나 상담 연결은 하지 않아요."

def confirmationSuggestions : List Str := [lit "네", lit "취소"]

/-- Whether the frame names an order that the store does not have. -/
def Frame.strayOrder (frame : Frame) (store : DemoStore) : Bool :=
  (frame.slots.get? .orderId).any fun id => (store.orders.get? id).isNone

/-- A search that finds one product keeps it for the next request. -/
def Frame.keepProduct (frame : Frame) (cards : List Card) : Frame :=
  match frame.intent.val.handler, cards with
  | .search, [.product product] => { frame with slots := frame.slots.set .product product.name }
  | _, _ => frame

variable [Unicode]

def advance (state : Conversation) (start : Str) : Turn :=
  match state.active with
  | none => (.error .assertionError, state)
  | some frame =>
      let intent := frame.intent.val
      if frame.strayOrder state.store then
        reply { state with active := some { frame with slots := frame.slots.erase .orderId } }
          (lit "그 주문은 없어요. ORD-1001, ORD-1002, ORD-1003 중 선택해주세요.") []
          [lit "ORD-1001", lit "ORD-1002", lit "ORD-1003"]
      else
        match frame.missing with
        | slot :: _ =>
            reply state (start ++ intent.label ++ lit "을 도와드릴게요. " ++ slot.contract.question)
              [] [slot.contract.sample]
        | [] =>
            if intent.confirmation then
              reply { state with active := some { frame with phase := .confirming } }
                (start ++ confirmationText intent frame.slots) [] confirmationSuggestions
            else
              match execute intent frame.slots state.store with
              | .error error => (.error error, state)
              | .ok ((message, cards), store) =>
                  finish { state with active := some (frame.keepProduct cards), store }
                    (start ++ message) cards

/-! ## Activation -/

/-- `state.suspended.append(state.active)`, of which the last eight are kept. -/
def suspend (state : Conversation) : Conversation :=
  match state.active with
  | none => state
  | some frame =>
      { state with suspended := lastItems 8 (state.suspended ++ [frame]), active := none }

/-- The slots that a new frame takes over from the one before. -/
def inherited (intent : Intent) (text : Str) (prior : Option Frame) : List (Slot × Str) :=
  match prior with
  | none => []
  | some frame =>
      if refers text then
        frame.slots.entries.filter fun entry =>
          entry.1 ∈ [Slot.orderId, Slot.product] ∧ entry.1 ∈ intent.requiredSlots
      else []

/-- `Frame(intent_id)`, with the next number. -/
def openFrame (state : Conversation) (intent : Catalogued) (slots : List (Slot × Str)) :
    Conversation :=
  { state with
    active := some ⟨state.created, intent, Dict.ofPairs slots, .collecting⟩
    created := state.created + 1 }

/-- The values that an intent requires. -/
def allowed (intent : Intent) (values : Dict Slot Str) : List (Slot × Str) :=
  values.entries.filter fun entry => entry.1 ∈ intent.requiredSlots

/-- `frame.slots.update(values)` of the active frame, which is collecting again. -/
def fill (state : Conversation) (frame : Frame) (values : List (Slot × Str)) : Conversation :=
  { state with
    active := some { frame with slots := frame.slots.update values, phase := .collecting }
    choices := [] }

def activate (state : Conversation) (intent : Catalogued) (text : Str) : Turn :=
  let prior := state.active.or state.lastCompleted
  let state :=
    match state.active with
    | none => state
    | some frame => if frame.intent.val.id ≠ intent.val.id then suspend state else state
  let state :=
    match state.active with
    | none => openFrame state intent (inherited intent.val text prior)
    | some _ => state
  match state.active with
  | none => (.error .assertionError, state)
  | some frame =>
      let state := fill state frame (allowed intent.val (extract text none))
      advance { state with clarificationText := [] } []

/-! ## Turns -/

/-- The branch of `RESUME`. -/
def resume (state : Conversation) : Turn :=
  match state.suspended.getLast? with
  | none => reply state (lit "중단한 문의가 없어요. 어떤 도움이 필요하세요?") [] []
  | some previous =>
      advance { state with
        suspended := state.suspended.dropLast ++ state.active.toList
        active := some previous
        choices := [] } (lit "이전 문의를 이어갈게요. ")

/-- The branch of `NO`. -/
def cancel (state : Conversation) : Turn :=
  reply { state with active := none, choices := [] }
    (lit "진행 중인 문의를 취소했어요. 접수나 변경은 하지 않았어요.") [] []

/-- The choice that a command names, by its number or by its label or id. -/
def chosen (choices : List Catalogued) (command : Str) : Option Catalogued :=
  let named := choices.find? fun intent =>
    decide (command = normalize intent.val.label ∨ command = intent.val.id)
  if command = lit "1" then choices[0]?.or named
  else if command = lit "2" then choices[1]?.or named
  else if command = lit "3" then choices[2]?.or named
  else named

/-- The execution of a confirmed frame. -/
def confirm (state : Conversation) (frame : Frame) : Turn :=
  match execute frame.intent.val frame.slots state.store with
  | .error error => (.error error, state)
  | .ok ((message, cards), store) => finish { state with store } message cards

def corrects (command : Str) : Bool :=
  [lit "아니", lit "정정", lit "수정"].any fun start => Str.startswith command start

/-- The branch of an active frame; nothing where the turn goes on. -/
def answerSlot (state : Conversation) (frame : Frame) (text command : Str) : Option Turn :=
  if frame.phase = .confirming ∧ command ∈ yesWords then some (confirm state frame)
  else
    let expected := frame.missing.head?
    let values := extract text expected
    let useful := allowed frame.intent.val values
    let bare := !useful.isEmpty && !isRequest text
    let correction := corrects command && bare
    if correction || bare || expected.any fun slot => isSlotReply text slot values then
      some (advance (fill state frame useful) (if correction then lit "수정했어요. " else []))
    else if command ∈ yesWords then some (advance state [])
    else
      match expected with
      | none => none
      | some slot =>
          if invalidSlotAttempt text slot then
            some (reply state (lit "입력 형식을 확인해주세요. " ++ slot.contract.question) []
              [slot.contract.sample])
          else none

/-- The intent that shows a product in detail. -/
def productDetail : Catalogued :=
  ⟨⟨lit "product_detail", .products, lit "상품 상세", [.product], .product, false⟩, by decide⟩

/-- The task that a bare entity continues after the last one. -/
def followUp (state : Conversation) (text : Str) : Option Catalogued :=
  match state.active, state.lastCompleted with
  | none, some last =>
      let values := extract text none
      if isRequest text then none
      else if (values.get? .product).isSome ∧ last.intent.val.category = .products then
        some (if last.intent.val.handler = .product then last.intent else productDetail)
      else if (values.get? .orderId).isSome ∧ .orderId ∈ last.intent.val.requiredSlots then
        some last.intent
      else none
  | _, _ => none

/-- The task before, for an utterance that refers to it. -/
def referenceContext (state : Conversation) (text : Str) : Str :=
  match state.active.or state.lastCompleted with
  | none => []
  | some frame =>
      let named := frame.slots.entries.filter fun entry =>
        entry.1 ∈ [Slot.product, Slot.orderId, Slot.query]
      let context := frame.intent.val.label ++ lit "; " ++ List.intercalate (lit ", ")
        (named.map fun entry => entry.1.key ++ lit "=" ++ entry.2)
      if refers text then context.take 180 else []

/-- A classification without an intent asks back. -/
def clarify (state : Conversation) (text : Str) (candidates : List Catalogued) : Turn :=
  let state := if isRequest text then suspend state else state
  let labels := candidates.map fun intent => intent.val.label
  reply { state with clarificationText := text, choices := candidates }
    (lit "어떤 문의인지 한 번만 더 알려주세요. 아래 업무를 " ++
      lit "선택하거나 다르게 말씀해주세요.") []
    (if labels.isEmpty then [lit "배송 도착 예정", lit "상품 검색", lit "상담사 연결"] else labels)

/-- The last part of `turn`. -/
def classified (state : Conversation) (utterance : Utterance) : Turn :=
  match utterance.classify utterance.text (referenceContext state utterance.text) with
  | .error error => (.error error, state)
  | .ok ⟨none, candidates⟩ => clarify state utterance.text candidates
  | .ok ⟨some intent, _⟩ => activate state intent utterance.text

/-- `turn` without an explicit selection, after the commands. -/
def respond (state : Conversation) (utterance : Utterance) (command : Str) : Turn :=
  match chosen state.choices command with
  | some intent => activate state intent state.clarificationText
  | none =>
      if state.active.isSome ∧ command ∈ thanksWords then
        reply state (lit "천만에요. 진행 중인 문의는 그대로 유지할게요.") [] []
      else
        let answered :=
          match state.active with
          | none => none
          | some frame =>
              if state.choices.isEmpty then answerSlot state frame utterance.text command else none
        match answered with
        | some outcome => outcome
        | none =>
            match followUp state utterance.text with
            | some intent => activate state intent utterance.text
            | none => classified state utterance

/-- The beginning of a turn: the message is recorded. -/
def hear (state : Conversation) (text : Str) : Conversation :=
  { state with turn := state.turn + 1, messages := state.messages ++ [.user text] }

def turn (state : Conversation) (utterance : Utterance) : Turn :=
  let state := hear state utterance.text
  let command := normalize utterance.text
  if command ∈ resumeWords then resume state
  else if command ∈ noWords ∧ (state.active.isSome ∨ state.choices ≠ []) then cancel state
  else
    match utterance.selectedIntent with
    | none | some [] => respond state utterance command
    | some id =>
        match lookup id with
        | none => (.error (.valueError "Unknown intent"), state)
        | some intent => activate state intent utterance.text

end VllmVerifier.CustomerService
