import VllmVerifier.Python.Str

/-!
`catalog.py` and the catalogue of the customer-service example: its slots and
its intents, with what each of them needs.
-/

set_option autoImplicit false

namespace VllmVerifier.CustomerService

open Python

/-! ## Slots -/

/-- The keys of `SLOTS`. -/
inductive Slot where
  | orderId
  | product
  | otherProduct
  | query
  | reason
  | quantity
  | option
  | address
  | instructions
  | region
  | date
  | device
  | event
  | coupon
  | paymentMethod
  | email
  | phone
  | name
  | notification
  | channel
  | message
deriving DecidableEq

namespace Slot

def key : Slot → Str
  | .orderId => lit "order_id"
  | .product => lit "product"
  | .otherProduct => lit "other_product"
  | .query => lit "query"
  | .reason => lit "reason"
  | .quantity => lit "quantity"
  | .option => lit "option"
  | .address => lit "address"
  | .instructions => lit "instructions"
  | .region => lit "region"
  | .date => lit "date"
  | .device => lit "device"
  | .event => lit "event"
  | .coupon => lit "coupon"
  | .paymentMethod => lit "payment_method"
  | .email => lit "email"
  | .phone => lit "phone"
  | .name => lit "name"
  | .notification => lit "notification"
  | .channel => lit "channel"
  | .message => lit "message"

/-- An entry of `SLOTS`: the label, the question and an example. -/
structure Contract where
  label : Str
  question : Str
  sample : Str

/-- `SLOTS`. -/
def contract : Slot → Contract
  | .orderId => ⟨lit "주문번호", lit "주문번호를 알려주세요. 예: ORD-1001", lit "ORD-1001"⟩
  | .product => ⟨lit "상품", lit "어떤 상품인가요? 에어버즈, 트래블백, 텀블러 등이 있어요.", lit "에어버즈"⟩
  | .otherProduct => ⟨lit "비교 상품", lit "어떤 상품과 비교할까요?", lit "미니 스피커"⟩
  | .query => ⟨lit "검색 조건", lit "어떤 상품을 찾으세요? 예: 무선 이어폰, 여행용 가방", lit "무선 이어폰"⟩
  | .reason => ⟨lit "사유", lit "사유를 알려주세요. 예: 사유: 단순 변심", lit "사유: 단순 변심"⟩
  | .quantity => ⟨lit "수량", lit "몇 개로 변경할까요? 1~99개를 입력해주세요.", lit "2개"⟩
  | .option => ⟨lit "옵션", lit "원하는 옵션을 알려주세요. 예: 블랙, 화이트, M", lit "블랙"⟩
  | .address => ⟨lit "주소", lit "데모용 주소를 입력해주세요. 예: 주소: 서울시 예시로 12", lit "주소: 서울시 예시로 12"⟩
  | .instructions => ⟨lit "배송 요청", lit "전달할 내용을 적어주세요. 예: 요청: 문 앞에 놓아주세요", lit "요청: 문 앞"⟩
  | .region => ⟨lit "지역", lit "지역을 알려주세요. 예: 서울, 제주", lit "서울"⟩
  | .date => ⟨lit "날짜", lit "날짜를 YYYY-MM-DD 형식으로 알려주세요. 예: 2026-10-01", lit "2026-10-01"⟩
  | .device => ⟨lit "사용 기기", lit "연결할 기기를 알려주세요. 예: 아이폰, 갤럭시, 노트북", lit "아이폰"⟩
  | .event => ⟨lit "이벤트", lit "어떤 이벤트인가요? 가을맞이, 신규회원, 주말 특가가 있어요.", lit "가을맞이"⟩
  | .coupon => ⟨lit "쿠폰 코드", lit "쿠폰 코드를 알려주세요. 예: WELCOME10", lit "WELCOME10"⟩
  | .paymentMethod => ⟨lit "결제 수단", lit "결제 수단을 알려주세요. 예: 카드, 계좌이체, 간편결제", lit "카드"⟩
  | .email => ⟨lit "이메일", lit "데모용 이메일을 입력해주세요. 실제 개인정보는 입력하지 마세요.", lit "demo@example.com"⟩
  | .phone => ⟨lit "전화번호", lit "데모용 번호를 입력해주세요. 예: 010-0000-0000", lit "010-0000-0000"⟩
  | .name => ⟨lit "표시 이름", lit "변경할 이름을 입력해주세요. 예: 이름: 데모 고객", lit "이름: 데모 고객"⟩
  | .notification => ⟨lit "알림 설정", lit "마케팅 알림을 켤까요, 끌까요?", lit "끄기"⟩
  | .channel => ⟨lit "상담 채널", lit "채팅과 전화 중 어떤 상담을 원하세요?", lit "채팅"⟩
  | .message => ⟨lit "카드 문구", lit "선물 카드 문구를 입력해주세요. 예: 문구: 생일 축하해", lit "문구: 생일 축하해"⟩

end Slot

/-! ## Intents -/

inductive Category where
  | orders
  | delivery
  | returns
  | products
  | payments
  | promotions
  | accounts
  | membership
  | support
  | general
deriving DecidableEq

inductive Handler where
  | order
  | orders
  | mutation
  | product
  | faq
  | search
  | compare
  | events
  | event
  | coupons
  | coupon
  | handoff
deriving DecidableEq

structure Intent where
  id : Str
  category : Category
  label : Str
  requiredSlots : List Slot
  handler : Handler
  confirmation : Bool
deriving DecidableEq

/-- `INTENTS`, in the order of the catalogue. -/
def intents : List Intent := [
  ⟨lit "order_status", .orders, lit "주문 상태", [.orderId], .order, false⟩,
  ⟨lit "order_history", .orders, lit "주문 내역", [], .orders, false⟩,
  ⟨lit "order_cancel", .orders, lit "주문 취소", [.orderId, .reason], .mutation, true⟩,
  ⟨lit "order_quantity", .orders, lit "주문 수량 변경", [.orderId, .quantity], .mutation, true⟩,
  ⟨lit "order_option", .orders, lit "주문 옵션 변경", [.orderId, .option], .mutation, true⟩,
  ⟨lit "order_confirmation", .orders, lit "주문 확인서", [.orderId], .order, false⟩,
  ⟨lit "order_receipt", .orders, lit "구매 영수증", [.orderId], .order, false⟩,
  ⟨lit "guest_order", .orders, lit "비회원 주문 조회", [.orderId], .order, false⟩,
  ⟨lit "preorder", .orders, lit "예약 판매 안내", [.product], .product, false⟩,
  ⟨lit "order_split", .orders, lit "주문 분리 배송", [.orderId], .order, false⟩,
  ⟨lit "delivery_eta", .delivery, lit "도착 예정 시간", [.orderId], .order, false⟩,
  ⟨lit "delivery_tracking", .delivery, lit "배송 추적", [.orderId], .order, false⟩,
  ⟨lit "delivery_delay", .delivery, lit "배송 지연", [.orderId], .order, false⟩,
  ⟨lit "delivery_fee", .delivery, lit "배송비 안내", [], .faq, false⟩,
  ⟨lit "delivery_region", .delivery, lit "배송 가능 지역", [.region], .faq, false⟩,
  ⟨lit "delivery_address", .delivery, lit "배송지 변경", [.orderId, .address], .mutation, true⟩,
  ⟨lit "delivery_instructions", .delivery, lit "배송 요청사항",
    [.orderId, .instructions], .mutation, true⟩,
  ⟨lit "delivery_missed", .delivery, lit "부재 중 배송", [.orderId], .order, false⟩,
  ⟨lit "delivery_wrong", .delivery, lit "오배송", [.orderId], .order, false⟩,
  ⟨lit "delivery_missing", .delivery, lit "배송 완료 미수령", [.orderId], .order, false⟩,
  ⟨lit "return_request", .returns, lit "반품 접수", [.orderId, .reason], .mutation, true⟩,
  ⟨lit "exchange_request", .returns, lit "교환 접수", [.orderId, .option, .reason], .mutation, true⟩,
  ⟨lit "refund_status", .returns, lit "환불 상태", [.orderId], .order, false⟩,
  ⟨lit "return_policy", .returns, lit "반품 규정", [], .faq, false⟩,
  ⟨lit "return_fee", .returns, lit "반품 배송비", [], .faq, false⟩,
  ⟨lit "return_pickup", .returns, lit "반품 수거 예약", [.orderId, .date], .mutation, true⟩,
  ⟨lit "return_withdraw", .returns, lit "반품 철회", [.orderId], .mutation, true⟩,
  ⟨lit "refund_method", .returns, lit "환불 수단", [], .faq, false⟩,
  ⟨lit "partial_return", .returns, lit "부분 반품", [.orderId, .product, .reason], .mutation, true⟩,
  ⟨lit "refund_duration", .returns, lit "환불 소요 기간", [], .faq, false⟩,
  ⟨lit "product_search", .products, lit "상품 검색", [.query], .search, false⟩,
  ⟨lit "product_detail", .products, lit "상품 상세", [.product], .product, false⟩,
  ⟨lit "product_stock", .products, lit "상품 재고", [.product], .product, false⟩,
  ⟨lit "product_restock", .products, lit "재입고 일정", [.product], .product, false⟩,
  ⟨lit "product_size", .products, lit "사이즈 안내", [.product], .product, false⟩,
  ⟨lit "product_compatibility", .products, lit "호환성 확인", [.product, .device], .product, false⟩,
  ⟨lit "product_compare", .products, lit "상품 비교", [.product, .otherProduct], .compare, false⟩,
  ⟨lit "product_authenticity", .products, lit "정품 확인", [.product], .product, false⟩,
  ⟨lit "product_recommend", .products, lit "상품 추천", [.query], .search, false⟩,
  ⟨lit "product_reviews", .products, lit "상품 후기", [.product], .product, false⟩,
  ⟨lit "payment_methods", .payments, lit "결제 수단", [], .faq, false⟩,
  ⟨lit "payment_failed", .payments, lit "결제 실패", [.paymentMethod], .faq, false⟩,
  ⟨lit "payment_duplicate", .payments, lit "중복 결제", [.orderId], .order, false⟩,
  ⟨lit "payment_installment", .payments, lit "할부 안내", [], .faq, false⟩,
  ⟨lit "cash_receipt", .payments, lit "현금영수증", [.orderId], .order, false⟩,
  ⟨lit "tax_invoice", .payments, lit "세금계산서", [.orderId], .order, false⟩,
  ⟨lit "bank_transfer", .payments, lit "무통장 입금 안내", [], .faq, false⟩,
  ⟨lit "payment_deadline", .payments, lit "입금 기한", [.orderId], .order, false⟩,
  ⟨lit "virtual_account", .payments, lit "가상계좌 조회", [.orderId], .order, false⟩,
  ⟨lit "deposit_confirmation", .payments, lit "입금 확인", [.orderId], .order, false⟩,
  ⟨lit "event_list", .promotions, lit "이벤트 조회", [], .events, false⟩,
  ⟨lit "event_detail", .promotions, lit "이벤트 상세", [.event], .event, false⟩,
  ⟨lit "event_eligibility", .promotions, lit "이벤트 참여 조건", [.event], .event, false⟩,
  ⟨lit "coupon_list", .promotions, lit "보유 쿠폰", [], .coupons, false⟩,
  ⟨lit "coupon_apply", .promotions, lit "쿠폰 적용", [.orderId, .coupon], .mutation, true⟩,
  ⟨lit "coupon_error", .promotions, lit "쿠폰 오류", [.coupon], .coupon, false⟩,
  ⟨lit "coupon_expiry", .promotions, lit "쿠폰 유효기간", [.coupon], .coupon, false⟩,
  ⟨lit "points_balance", .promotions, lit "포인트 잔액", [], .faq, false⟩,
  ⟨lit "points_use", .promotions, lit "포인트 사용", [], .faq, false⟩,
  ⟨lit "points_expiry", .promotions, lit "포인트 소멸", [], .faq, false⟩,
  ⟨lit "login_help", .accounts, lit "로그인 문제", [], .faq, false⟩,
  ⟨lit "password_reset", .accounts, lit "비밀번호 재설정", [], .faq, false⟩,
  ⟨lit "email_change", .accounts, lit "이메일 변경", [.email], .mutation, true⟩,
  ⟨lit "phone_change", .accounts, lit "전화번호 변경", [.phone], .mutation, true⟩,
  ⟨lit "profile_change", .accounts, lit "프로필 변경", [.name], .mutation, true⟩,
  ⟨lit "account_delete", .accounts, lit "회원 탈퇴", [.reason], .mutation, true⟩,
  ⟨lit "signup_help", .accounts, lit "회원가입 안내", [], .faq, false⟩,
  ⟨lit "verification_help", .accounts, lit "인증 문제", [], .faq, false⟩,
  ⟨lit "privacy_info", .accounts, lit "개인정보 안내", [], .faq, false⟩,
  ⟨lit "notification_settings", .accounts, lit "알림 설정", [.notification], .mutation, true⟩,
  ⟨lit "membership_tier", .membership, lit "회원 등급", [], .faq, false⟩,
  ⟨lit "membership_benefits", .membership, lit "멤버십 혜택", [], .faq, false⟩,
  ⟨lit "membership_upgrade", .membership, lit "등급 승급", [], .faq, false⟩,
  ⟨lit "subscription_renew", .membership, lit "구독 갱신일", [], .faq, false⟩,
  ⟨lit "subscription_cancel", .membership, lit "구독 해지", [.reason], .mutation, true⟩,
  ⟨lit "subscription_pause", .membership, lit "구독 일시정지", [.date], .mutation, true⟩,
  ⟨lit "subscription_schedule", .membership, lit "정기 배송일 변경", [.date], .mutation, true⟩,
  ⟨lit "subscription_address", .membership, lit "정기 배송지 변경", [.address], .mutation, true⟩,
  ⟨lit "subscription_payment", .membership, lit "구독 결제수단 변경", [.paymentMethod], .mutation, true⟩,
  ⟨lit "referral", .membership, lit "친구 추천", [], .faq, false⟩,
  ⟨lit "agent_handoff", .support, lit "상담사 연결", [.channel], .handoff, true⟩,
  ⟨lit "support_hours", .support, lit "상담 운영시간", [], .faq, false⟩,
  ⟨lit "complaint", .support, lit "불만 접수", [.reason], .mutation, true⟩,
  ⟨lit "feedback", .support, lit "서비스 의견", [.reason], .mutation, true⟩,
  ⟨lit "product_damage", .support, lit "제품 파손", [.orderId], .order, false⟩,
  ⟨lit "missing_parts", .support, lit "구성품 누락", [.orderId], .order, false⟩,
  ⟨lit "installation_help", .support, lit "설치 안내", [.product], .product, false⟩,
  ⟨lit "repair_request", .support, lit "수리 접수", [.product, .reason], .mutation, true⟩,
  ⟨lit "warranty_info", .support, lit "보증 기간", [.product], .product, false⟩,
  ⟨lit "product_manual", .support, lit "사용 설명서", [.product], .product, false⟩,
  ⟨lit "greeting", .general, lit "인사", [], .faq, false⟩,
  ⟨lit "thanks", .general, lit "감사", [], .faq, false⟩,
  ⟨lit "goodbye", .general, lit "종료 인사", [], .faq, false⟩,
  ⟨lit "help", .general, lit "도움말", [], .faq, false⟩,
  ⟨lit "language", .general, lit "언어 안내", [], .faq, false⟩,
  ⟨lit "store_location", .general, lit "매장 위치", [.region], .faq, false⟩,
  ⟨lit "contact_info", .general, lit "연락처", [], .faq, false⟩,
  ⟨lit "gift_wrap", .general, lit "선물 포장", [.product], .product, false⟩,
  ⟨lit "gift_message", .general, lit "선물 메시지", [.orderId, .message], .mutation, true⟩,
  ⟨lit "sustainability", .general, lit "친환경 포장", [], .faq, false⟩]

/-- An intent of the catalogue. -/
abbrev Catalogued := { intent : Intent // intent ∈ intents }

/-- `INTENTS[id]`. -/
def lookup (id : Str) : Option Catalogued :=
  intents.attach.find? fun intent => intent.val.id = id

end VllmVerifier.CustomerService
