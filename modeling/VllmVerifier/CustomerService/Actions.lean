import VllmVerifier.CustomerService.Slots
import VllmVerifier.Json.Dumps
import VllmVerifier.Models

/-!
`actions.py`: what an intent does to the demo store. An exception leaves the
store as it was, since the source reads every slot before it writes.
-/

set_option autoImplicit false

namespace VllmVerifier.CustomerService

open Python Json

/-! ## The store -/

structure Ticket where
  id : Str
  intent : Str
  slots : Dict Slot Str

/-- The customer, with what `profile.update` has set. -/
structure Profile where
  customer : Customer
  updates : Dict Slot Str

structure DemoStore where
  orders : Dict Str Order
  tickets : List Ticket
  profile : Profile

/-- A new `DemoStore`. -/
def freshStore : DemoStore := ⟨⟨orders, by decide⟩, [], ⟨customer, Dict.empty⟩⟩

/-- An entry of the `cards` of a reply. -/
inductive Card where
  | order (id : Str) (order : Order)
  | event (event : Event)
  | coupon (coupon : Coupon)
  | product (product : Product)
  | ticket (ticket : Ticket)

/-- The message and the cards of an action. -/
abbrev Outcome := Str × List Card

def typeError : PyException := .other "TypeError"

/-- `slots[slot]`. -/
def readSlot (slots : Dict Slot Str) (slot : Slot) : Except PyException Str :=
  match slots.get? slot with
  | none => .error .keyError
  | some value => .ok value

/-! ## Reading actions -/

section Search

variable [Unicode]

/-- `word.replace(" ", "").lower()`. -/
def compact (word : Str) : Str := Unicode.lower (word.filter fun code => code != ord ' ')

def Product.answers (query : Str) (product : Product) : Bool :=
  (product.name :: product.tags ++ product.aliases).any fun word =>
    decide (1 < word.length) &&
      (Str.contains (compact word) query || Str.contains query (compact word))

/-- The branch of the `search` handler. -/
def searchProducts (query : Str) : Outcome :=
  let found := products.filter (Product.answers (compact query))
  if found.isEmpty then
    (lit "일치하는 상품이 없어요. 이어폰, 가방, 텀블러, 티셔츠, 스피커로 검색해보세요.", [])
  else
    (lit "“" ++ query ++ lit "” 검색 결과 " ++ natRepr found.length ++
      lit "개예요. 상품명을 말하면 상세 정보를 볼 수 있어요.", found.map .product)

end Search

/-- The message about a product. -/
def productMessage (key : Str) (product : Product) : Str :=
  let messages : List (Str × Str) := [
    (lit "product_stock", product.name ++ lit " 재고는 " ++ natRepr product.stock ++ lit "개예요."),
    (lit "product_restock", product.name ++ lit " 재입고: " ++ product.restock ++ lit "."),
    (lit "product_size", product.sizes),
    (lit "product_compatibility",
      if product.id ∈ [lit "P001", lit "P005"] then
        lit "블루투스를 지원하는 기기와 연결할 수 있어요. 전용 앱의 " ++
          lit "일부 기능은 기기별로 다를 수 있어요."
      else lit "전자기기 연결 기능이 없는 상품이에요."),
    (lit "product_authenticity",
      lit "데모 상품은 공식 판매 상품으로 가정해요. 실제 정품 판별 결과는 아니에요."),
    (lit "product_reviews", lit "데모 구매자 평점: " ++ product.rating ++ lit "/5."),
    (lit "preorder", lit "이 상품은 현재 예약 판매 일정이 없어요."),
    (lit "warranty_info", product.warranty),
    (lit "installation_help", product.manual),
    (lit "product_manual", product.manual),
    (lit "gift_wrap", lit "데모 선물 포장은 2,000원이에요. 실제 결제나 포장 주문은 하지 않아요.")]
  (messages.lookup key).getD product.description

/-- The branch of the `product` and `compare` handlers. -/
def productAction (intent : Intent) (slots : Dict Slot Str) : Except PyException Outcome := do
  let name ← readSlot slots .product
  match productNamed name with
  | none => pure (lit "데모 상품 목록에서 상품을 선택해주세요.", [])
  | some product =>
      if intent.handler = .compare then do
        let other ← readSlot slots .otherProduct
        pure (lit "두 상품의 가격과 사양을 비교해보세요.",
          .product product :: ((productNamed other).map Card.product).toList)
      else pure (productMessage intent.id product, [.product product])

/-- The message about an order. -/
def orderMessage (key : Str) (order : Order) : Str :=
  let messages : List (Str × Str) := [
    (lit "delivery_eta", lit "도착 예정: " ++ order.eta ++ lit "."),
    (lit "delivery_tracking",
      lit "현재 위치: " ++ order.location ++ lit ". 운송장: " ++ order.tracking ++ lit "."),
    (lit "delivery_delay", lit "데모 물류 현황을 확인했어요. 표시된 예정 시간은 고정 " ++
      lit "예시이며 실시간 택배 정보가 아니에요."),
    (lit "delivery_missing", lit "문 앞·경비실·택배 보관함을 확인해주세요. 찾지 못하면 " ++
      lit "상담사 연결로 배송 조사를 요청할 수 있어요."),
    (lit "delivery_wrong", lit "받은 상품과 주문 내역을 비교해주세요. 오배송은 상담사를 " ++
      lit "통해 무료 교환을 요청할 수 있어요."),
    (lit "delivery_missed", lit "택배기사의 부재 안내를 확인하고 배송 요청사항을 지정해주세요."),
    (lit "refund_status",
      lit "접수된 실제 환불은 없어요. 이 데모에서는 반품 접수 흐름만 체험할 수 있어요."),
    (lit "payment_duplicate", lit "실제 결제 원장을 조회하지 않는 데모예요. 주문 금액을 " ++
      lit "확인하고 실제 중복 승인은 판매처에 문의해주세요."),
    (lit "payment_deadline", lit "데모 미입금 주문의 입금 기한은 주문 다음 날 23:59예요."),
    (lit "virtual_account", lit "데모이므로 실제 입금 계좌를 제공하지 않아요. 결제 화면에서 " ++
      lit "계좌를 확인하는 흐름이에요."),
    (lit "deposit_confirmation",
      lit "표시된 주문 상태만 확인할 수 있어요. 실제 은행 입금은 조회하지 않아요."),
    (lit "cash_receipt", lit "데모 현금영수증 발급 요청 화면이에요. 실제 국세청 발급은 하지 않아요."),
    (lit "tax_invoice",
      lit "데모 세금계산서 안내예요. 실제 발급은 판매처에 사업자 정보를 제출해야 해요."),
    (lit "order_confirmation", lit "주문 확인서에 사용할 데모 주문 내역이에요."),
    (lit "order_receipt", lit "데모 구매 내역이에요. 법적 증빙 영수증이 아니에요."),
    (lit "order_split", lit "출고 전이라면 분리 배송을 문의할 수 있어요. " ++
      lit "배송 중 주문은 나눌 수 없어요."),
    (lit "product_damage", lit "사용을 멈추고 포장과 제품 사진을 보관해주세요. 반품·교환 " ++
      lit "또는 상담사 연결로 이어갈 수 있어요."),
    (lit "missing_parts", lit "포장 내부를 다시 확인해주세요. " ++
      lit "빠진 구성품은 상담사에게 문의할 수 있어요.")]
  (messages.lookup key).getD (lit "주문 상태: " ++ order.status ++ lit ".")

/-- The branch of the `order` handler. -/
def orderAction (key : Str) (slots : Dict Slot Str) (order : Option Order) :
    Except PyException Outcome :=
  match order with
  | none => .error typeError
  | some order => do
      let id ← readSlot slots .orderId
      pure (orderMessage key order, [.order id order])

/-! ## Changing actions -/

/-- The changes that an order allows only before it is shipped. -/
def openOrderKeys : List Str := [lit "order_cancel", lit "order_quantity", lit "order_option",
  lit "delivery_address", lit "coupon_apply"]

def profileKeys : List Str := [lit "email_change", lit "phone_change", lit "profile_change",
  lit "notification_settings"]

/-- The first check of a change: what it answers when the order was shipped. -/
def shippedRefusal (key : Str) (order : Option Order) : Except PyException (Option Str) :=
  if key ∈ openOrderKeys then
    match order with
    | none => .error typeError
    | some order =>
        if order.status ≠ lit "결제 완료" then
          .ok (some (lit "이 주문은 이미 출고되어 해당 변경을 할 수 없어요. " ++
            lit "ORD-1002는 출고 전 주문이에요."))
        else .ok none
  else .ok none

/-- The second check: what it answers when the product has no such option. -/
def optionRefusal (key : Str) (slots : Dict Slot Str) (order : Option Order) :
    Except PyException (Option Str) :=
  if key ∈ [lit "order_option", lit "exchange_request"] then
    match order.bind fun order => productNamed order.product with
    | none => .error typeError
    | some product => do
        let option ← readSlot slots .option
        if option ∈ product.options then pure none
        else pure (some (lit "선택 가능한 옵션은 " ++ List.intercalate (lit ", ") product.options ++
          lit "예요. 옵션을 수정해 다시 요청해주세요."))
  else .ok none

/-- `int(slots["quantity"])`. -/
def readQuantity [Unicode] (slots : Dict Slot Str) : Except PyException Int := do
  let text ← readSlot slots .quantity
  match Unicode.int? text with
  | none => .error (.valueError "invalid literal for int() with base 10")
  | some value => pure value

section Changes

variable [Unicode]

/-- The order after the change, where the intent changes one. -/
def changeOrder (key : Str) (slots : Dict Slot Str) (order : Order) : Except PyException Order := do
  if key = lit "order_cancel" then pure { order with status := lit "취소 완료" }
  else if key = lit "order_quantity" then do
    let quantity ← readQuantity slots
    pure { order with quantity }
  else if key = lit "order_option" then do
    let option ← readSlot slots .option
    pure { order with option }
  else if key = lit "delivery_address" then do
    let address ← readSlot slots .address
    pure { order with address }
  else do
    let instructions ← readSlot slots .instructions
    pure { order with instructions := some instructions }

def orderKeys : List Str := [lit "order_cancel", lit "order_quantity", lit "order_option",
  lit "delivery_address", lit "delivery_instructions"]

/-- The assignments of a change. -/
def applyChange (key : Str) (slots : Dict Slot Str) (store : DemoStore) :
    Except PyException DemoStore :=
  if key ∈ orderKeys then
    let id := (slots.get? .orderId).getD []
    match store.orders.get? id with
    | none => .error typeError
    | some order => do
        let order ← changeOrder key slots order
        pure { store with orders := store.orders.set id order }
  else if key ∈ profileKeys then
    .ok { store with
      profile := { store.profile with updates := store.profile.updates.update slots.entries } }
  else .ok store

/-- `f"DEMO-{number:04d}"`. -/
def ticketId (number : Nat) : Str :=
  let digits := natRepr number
  lit "DEMO-" ++ List.replicate (4 - digits.length) (ord '0') ++ digits

/-- The branch of the `mutation` and `handoff` handlers. -/
def changeAction (intent : Intent) (slots : Dict Slot Str) (store : DemoStore)
    (order : Option Order) : Except PyException (Outcome × DemoStore) := do
  match ← shippedRefusal intent.id order with
  | some refusal => pure ((refusal, []), store)
  | none =>
      match ← optionRefusal intent.id slots order with
      | some refusal => pure ((refusal, []), store)
      | none => do
          let changed ← applyChange intent.id slots store
          let ticket : Ticket := ⟨ticketId (changed.tickets.length + 1), intent.id, slots⟩
          pure ((intent.label ++ lit " 데모 접수를 완료했어요. 접수번호 " ++ ticket.id ++
            lit ". 실제 주문·계정 변경, 결제 또는 상담 연결은 발생하지 않아요.", [.ticket ticket]),
            { changed with tickets := changed.tickets ++ [ticket] })

/-! ## Execution -/

/-- What an action that only reads the store leaves. -/
def unchanged (store : DemoStore) (outcome : Except PyException Outcome) :
    Except PyException (Outcome × DemoStore) := outcome.map fun found => (found, store)

/-- The answer of the `faq` handler. -/
def faqAction (key : Str) : Except PyException Outcome :=
  match faq.lookup key with
  | none => .error .keyError
  | some text => .ok (text, [])

def eventAnswer : Str := lit "2026-09-23 기준 데모 이벤트예요."

def couponAnswer : Str := lit "쿠폰의 사용 조건과 유효기간을 확인해주세요."

/-- The branches that read one slot. -/
def slotAction (slots : Dict Slot Str) (slot : Slot) (answer : Str → Outcome) :
    Except PyException Outcome := do
  let value ← readSlot slots slot
  pure (answer value)

def execute (intent : Intent) (slots : Dict Slot Str) (store : DemoStore) :
    Except PyException (Outcome × DemoStore) :=
  let order := store.orders.get? ((slots.get? .orderId).getD [])
  if .orderId ∈ intent.requiredSlots ∧ order.isNone then
    .ok ((lit "그 주문은 데모에 없어요. ORD-1001, ORD-1002, ORD-1003을 조회할 수 있어요.", []), store)
  else
    match intent.handler with
    | .faq => unchanged store (faqAction intent.id)
    | .orders => .ok ((lit "데모 고객의 주문 목록이에요.",
        store.orders.entries.map fun entry => .order entry.1 entry.2), store)
    | .events => .ok ((eventAnswer, events.map .event), store)
    | .event => unchanged store (slotAction slots .event fun name =>
        (eventAnswer, (events.filter fun event => event.name = name).map .event))
    | .coupons => .ok ((couponAnswer, coupons.map .coupon), store)
    | .coupon => unchanged store (slotAction slots .coupon fun code =>
        (couponAnswer, (coupons.filter fun coupon => coupon.code = code).map .coupon))
    | .search => unchanged store (slotAction slots .query searchProducts)
    | .product | .compare => unchanged store (productAction intent slots)
    | .order => unchanged store (orderAction intent.id slots order)
    | .mutation | .handoff => changeAction intent slots store order

end Changes

end VllmVerifier.CustomerService
