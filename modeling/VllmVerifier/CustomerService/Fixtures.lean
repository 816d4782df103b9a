import VllmVerifier.Python.Str

/-!
`fixtures.json` and `faqs.json`: the demo inventory, orders and answers of the
customer-service example.
-/

set_option autoImplicit false

namespace VllmVerifier.CustomerService

open Python

/-! ## Inventory -/

structure Product where
  id : Str
  name : Str
  aliases : List Str
  tags : List Str
  price : Nat
  stock : Nat
  description : Str
  sizes : Str
  options : List Str
  rating : Str
  restock : Str
  warranty : Str
  manual : Str
deriving DecidableEq

structure Event where
  name : Str
  description : Str
  period : Str
  eligibility : Str
deriving DecidableEq

structure Coupon where
  code : Str
  description : Str
  expiry : Str
  condition : Str
deriving DecidableEq

/-- `FIXTURES["products"]`. -/
def products : List Product := [
  ⟨lit "P001", lit "에어버즈", [lit "이어폰", lit "에어 버즈", lit "airbuds"],
    [lit "무선", lit "이어폰", lit "블루투스", lit "음악"], 79000, 24,
    lit "블루투스 5.3, 최대 24시간 배터리, USB-C 충전",
    lit "충전 케이스 60 × 45 mm", [lit "화이트", lit "블랙"], lit "4.5",
    lit "상시 판매", lit "구매일로부터 1년",
    lit "케이스를 열고 페어링 버튼을 3초 누른 후 기기의 Bluetooth 목록에서 에어버즈를 선택하세요."⟩,
  ⟨lit "P002", lit "트래블백", [lit "여행 가방", lit "여행용 가방", lit "가방", lit "트래블 백"],
    [lit "여행", lit "가방", lit "수납", lit "백팩"], 59000, 8,
    lit "24L 용량, 노트북 수납, 생활 방수",
    lit "45 × 30 × 18 cm", [lit "블랙", lit "베이지"], lit "4.7",
    lit "상시 판매", lit "구매일로부터 6개월",
    lit "세탁기 대신 젖은 천으로 닦고 그늘에서 건조하세요."⟩,
  ⟨lit "P003", lit "텀블러", [lit "컵", lit "보온병"],
    [lit "컵", lit "보온", lit "물병", lit "텀블러"], 24000, 0,
    lit "500ml, 스테인리스, 보온 6시간",
    lit "높이 22 cm, 지름 7 cm", [lit "그린", lit "화이트"], lit "4.3",
    lit "2026-10-02 예정", lit "구매일로부터 6개월",
    lit "중성 세제로 손세척하고 전자레인지에는 넣지 마세요."⟩,
  ⟨lit "P004", lit "데일리 티셔츠", [lit "티셔츠", lit "반팔", lit "티"],
    [lit "옷", lit "면", lit "반팔", lit "티셔츠"], 19000, 36,
    lit "면 100%, 기본핏",
    lit "S: 가슴 48cm / M: 51cm / L: 54cm", [lit "S", lit "M", lit "L"], lit "4.4",
    lit "상시 판매", lit "상품 수령 후 7일 내 초기 불량 접수",
    lit "30도 이하 물에 비슷한 색상끼리 세탁하세요."⟩,
  ⟨lit "P005", lit "미니 스피커", [lit "스피커", lit "블루투스 스피커"],
    [lit "음악", lit "스피커", lit "블루투스", lit "휴대용"], 49000, 12,
    lit "10W 출력, 블루투스 5.3, 배터리 12시간",
    lit "9 × 9 × 10 cm", [lit "블랙", lit "화이트"], lit "4.6",
    lit "상시 판매", lit "구매일로부터 1년",
    lit "전원 버튼을 2초 누른 후 Bluetooth 목록에서 미니 스피커를 선택하세요."⟩]

/-- `FIXTURES["events"]`. -/
def events : List Event := [
  ⟨lit "가을맞이", lit "가방·의류 최대 20% 할인", lit "2026-09-20 ~ 2026-09-30",
    lit "모든 데모 회원"⟩,
  ⟨lit "신규회원", lit "첫 구매 10% 쿠폰 지급", lit "가입 후 30일",
    lit "구매 이력이 없는 신규 데모 회원"⟩,
  ⟨lit "주말 특가", lit "주말 지정 상품 무료배송", lit "2026-09-26 ~ 2026-09-27",
    lit "지정 상품을 3만원 이상 구매"⟩]

/-- `FIXTURES["coupons"]`. -/
def coupons : List Coupon := [
  ⟨lit "WELCOME10", lit "첫 구매 10% 할인, 최대 5천원", lit "2026-10-23",
    lit "신규회원·3만원 이상 구매"⟩,
  ⟨lit "FALL20", lit "가방·의류 20% 할인, 최대 1만원", lit "2026-09-30",
    lit "가방 또는 의류 5만원 이상 구매"⟩]

def productNamed (name : Str) : Option Product := products.find? fun product => product.name = name

/-! ## Orders -/

/-- An order of the demo; its product is one of the inventory. -/
structure Order where
  product : Str
  status : Str
  eta : Str
  tracking : Str
  location : Str
  amount : Nat
  address : Str
  quantity : Int
  option : Str
  instructions : Option Str
  stocked : (productNamed product).isSome = true
deriving DecidableEq

/-- `FIXTURES["orders"]`. -/
def orders : List (Str × Order) := [
  (lit "ORD-1001", ⟨lit "에어버즈", lit "배송 중", lit "2026-09-24 14:00~18:00",
    lit "DEMO-71001", lit "서울 배송 터미널", 79000, lit "서울시 예시로 12", 1,
    lit "화이트", none, by decide⟩),
  (lit "ORD-1002", ⟨lit "트래블백", lit "결제 완료", lit "2026-09-26 09:00~18:00",
    lit "미발급", lit "출고 준비 전", 59000, lit "부산시 예시로 8", 1,
    lit "블랙", none, by decide⟩),
  (lit "ORD-1003", ⟨lit "텀블러", lit "배송 완료", lit "2026-09-21 11:20 배송 완료",
    lit "DEMO-71003", lit "배송 완료", 24000, lit "제주시 예시로 3", 1,
    lit "그린", none, by decide⟩)]

/-- `FIXTURES["customer"]`. -/
structure Customer where
  name : Str
  tier : Str
  points : Nat

def customer : Customer := ⟨lit "데모 고객", lit "실버", 3200⟩

/-! ## Answers -/

def faq : List (Str × Str) := [
  (lit "delivery_fee",
    lit "기본 배송비는 3,000원이며 5만원 이상 주문하면 무료예요. 제주·도서산간은 3,000원이 추가돼요."),
  (lit "delivery_region",
    lit "데모 배송 가능 지역은 국내예요. 제주도는 추가 배송비가 있고 해외 배송은 지원하지 않아요."),
  (lit "return_policy",
    lit "수령 후 7일 이내, 사용하지 않은 상품은 반품을 신청할 수 있어요. 주문제작·개봉 위생상품은 제한돼요."),
  (lit "return_fee",
    lit "단순 변심은 왕복 6,000원, 초기 불량·오배송은 데모 판매자가 부담해요."),
  (lit "refund_method",
    lit "원래 결제수단으로 환불해요. 카드 결제는 카드 승인 취소, 계좌 결제는 원결제 계좌로 처리해요."),
  (lit "refund_duration",
    lit "반품 검수 후 영업일 기준 3~5일이 걸려요. 카드사의 실제 반영일은 별도예요."),
  (lit "payment_methods",
    lit "신용·체크카드, 계좌이체, 가상계좌와 간편결제를 지원하는 데모예요."),
  (lit "payment_failed",
    lit "한도·잔액과 카드 유효기간을 확인하고 결제를 다시 시도해주세요. 비밀번호나 카드번호는 채팅에 입력하지 마세요."),
  (lit "payment_installment",
    lit "5만원 이상 카드 결제는 2~3개월 무이자 할부가 가능한 데모 정책이에요."),
  (lit "bank_transfer",
    lit "주문 화면에 표시되는 전용 가상계좌로 입금하는 방식이에요. 이 데모에서는 실제 입금하지 마세요."),
  (lit "points_balance",
    lit "데모 고객의 보유 포인트는 3,200P예요."),
  (lit "points_use",
    lit "1P는 1원이며 1,000P부터 사용할 수 있어요. 결제 금액의 최대 20%까지 적용하는 데모 정책이에요."),
  (lit "points_expiry",
    lit "데모 포인트 중 500P는 2026-10-31에 소멸 예정이에요."),
  (lit "login_help",
    lit "이메일 형식과 Caps Lock을 확인해보세요. 계속 안 되면 비밀번호 재설정이나 상담사 연결을 선택해주세요."),
  (lit "password_reset",
    lit "로그인 화면의 비밀번호 찾기에서 재설정할 수 있어요. 여기서는 실제 재설정 메일을 보내지 않아요."),
  (lit "signup_help",
    lit "이메일·약관 동의·이메일 인증 순서로 가입해요. 이 챗봇은 데모 계정으로 체험해요."),
  (lit "verification_help",
    lit "스팸함·문자 차단 설정을 확인하고 3분 뒤 재전송해보세요. 인증코드는 이 채팅에 입력하지 마세요."),
  (lit "privacy_info",
    lit "이 데모는 대화를 메모리에만 보관하고 세션 만료 또는 프로세스 종료 시 지워요. 실제 개인정보는 입력하지 마세요."),
  (lit "membership_tier",
    lit "데모 고객의 현재 등급은 실버예요."),
  (lit "membership_benefits",
    lit "실버 회원은 1% 적립과 월 1회 무료배송 쿠폰을 받는 데모 정책이에요."),
  (lit "membership_upgrade",
    lit "최근 6개월 누적 구매액 30만원이면 골드로 승급하는 데모 정책이에요."),
  (lit "subscription_renew",
    lit "데모 정기 구독의 다음 갱신일은 2026-10-01이에요."),
  (lit "referral",
    lit "데모 추천 코드 FRIEND-DEMO를 공유하면 첫 구매 완료 시 추천인과 친구에게 각각 1,000P를 지급해요."),
  (lit "support_hours",
    lit "데모 상담 시간은 평일 09:00~18:00, 점심시간은 12:00~13:00예요."),
  (lit "greeting",
    lit "안녕하세요! 주문, 배송, 상품, 이벤트를 도와드려요. “상품 언제 도착해?”처럼 말씀해주세요."),
  (lit "thanks",
    lit "도움이 됐다니 다행이에요. 더 궁금한 점이 있으면 알려주세요."),
  (lit "goodbye",
    lit "다음에 또 만나요! 새 대화를 누르면 대화 상태를 초기화할 수 있어요."),
  (lit "help",
    lit "상품 검색, 주문 조회, 도착 예정, 반품, 이벤트, 상담사 연결 등 100개 인텐트를 지원해요. 중단한 업무는 “이어서”라고 하면 돌아갈 수 있어요."),
  (lit "language",
    lit "한국어 대화 예시를 제공해요. 모델은 다국어를 처리하지만 이 데모의 슬롯 추출과 응답은 한국어 중심이에요."),
  (lit "store_location",
    lit "데모 매장: 서울시 예시로 100, 부산시 예시로 200. 실제 매장 주소가 아니에요."),
  (lit "contact_info",
    lit "실제 고객센터가 없는 데모예요. 문의 주소 예시는 support@example.com이며 메일이나 전화를 보내지 않아요."),
  (lit "sustainability",
    lit "종이 완충재와 재활용 가능한 포장재를 사용한다는 데모 정책이에요. 테이프와 송장은 떼어 분리배출해주세요.")]

end VllmVerifier.CustomerService
