import Mathlib.Algebra.Order.AbsoluteValue.Basic
import VllmVerifier.Backend
import VllmVerifier.CustomerService.Dialogue
import VllmVerifier.Decision.Artifact
import VllmVerifier.Python.Sorted
import VllmVerifier.Verification

/-!
`classifier.py` of the customer-service example: two choice questions to a System
One service, a category and then one of its intents. The service may answer
anything.
-/

set_option autoImplicit false

namespace VllmVerifier.CustomerService

open Python

/-! ## Criteria -/

/-- The keys of `CATEGORIES`. -/
def Category.id : Category → Str
  | .orders => lit "orders"
  | .delivery => lit "delivery"
  | .returns => lit "returns"
  | .products => lit "products"
  | .payments => lit "payments"
  | .promotions => lit "promotions"
  | .accounts => lit "accounts"
  | .membership => lit "membership"
  | .support => lit "support"
  | .general => lit "general"

def Category.label : Category → Str
  | .orders => lit "주문"
  | .delivery => lit "배송"
  | .returns => lit "반품·환불"
  | .products => lit "상품"
  | .payments => lit "결제"
  | .promotions => lit "이벤트·혜택"
  | .accounts => lit "계정"
  | .membership => lit "멤버십·구독"
  | .support => lit "상담·제품 지원"
  | .general => lit "일반 안내"

def Category.description : Category → Str
  | .orders => lit "주문 상태·내역·취소·수량/옵션 변경·주문 증빙"
  | .delivery => lit "배송 추적·도착 예정·배송지·분실·배송비"
  | .returns => lit "반품·교환·환불 접수와 규정"
  | .products => lit "상품 검색·상세·재고·사이즈·비교·추천"
  | .payments => lit "결제 수단·실패·중복 결제·할부·입금·세금 증빙"
  | .promotions => lit "진행 이벤트·쿠폰·포인트 조회와 사용"
  | .accounts => lit "로그인·가입·연락처·탈퇴·개인정보·알림"
  | .membership => lit "회원 등급·혜택·정기 배송·구독 설정"
  | .support => lit "상담사 연결·불만·고장·설치·수리·보증"
  | .general => lit "인사·도움말·매장·연락처·선물 포장"

/-- `CATEGORIES`, in the order of the catalogue. -/
def categories : List Category :=
  [.orders, .delivery, .returns, .products, .payments, .promotions, .accounts, .membership,
    .support, .general]

/-- The descriptions of the intents, in the order of the catalogue. -/
def descriptions : List Str := [
  lit "주문 처리 상태 확인", lit "최근 구매 주문 목록 조회", lit "출고 전 주문 전체 취소", lit "이미 주문한 상품의 수량 수정",
  lit "이미 주문한 상품의 색상이나 사이즈 변경", lit "주문 내용 확인서 발급", lit "구매 영수증 조회", lit "비회원으로 구매한 주문 찾기",
  lit "출시 전 상품 예약 판매 일정", lit "한 주문을 나눠 배송하는 방법", lit "상품 배송 도착 예정 날짜와 시간",
  lit "택배 운송장과 현재 배송 위치", lit "배송이 늦어지는 원인과 처리", lit "기본 배송비와 무료배송 기준",
  lit "도서산간 또는 해외 배송 가능 여부", lit "주문 배송 주소 변경", lit "문 앞 등 택배 전달 요청 변경",
  lit "받는 사람이 없어 배송 실패한 경우", lit "주문한 것과 다른 상품 배송", lit "배송 완료인데 택배를 받지 못함",
  lit "받은 상품을 반품 신청", lit "상품을 다른 옵션으로 교환", lit "진행 중 환불의 처리 상태", lit "반품 가능한 기간과 조건",
  lit "반품할 때 드는 비용", lit "반품 상품 수거 날짜 예약", lit "접수한 반품 신청 취소", lit "환불이 어떤 결제수단으로 되는지",
  lit "주문 중 특정 상품만 반품", lit "환불 금액 입금까지 걸리는 시간", lit "키워드나 종류로 판매 상품 검색", lit "상품 설명과 사양 조회",
  lit "현재 구매 가능한 수량과 품절 여부", lit "품절된 상품의 재입고 예정", lit "상품 치수와 사이즈표", lit "기기와 상품의 연결 호환 여부",
  lit "두 상품의 차이 비교", lit "판매 제품 정품 여부와 확인 방법", lit "용도나 예산에 맞는 상품 추천", lit "상품 리뷰와 구매자 평가 조회",
  lit "지원하는 카드와 간편결제 종류", lit "결제 오류나 승인 거절 해결", lit "같은 주문에 두 번 결제된 문제", lit "카드 할부와 무이자 조건",
  lit "현금영수증 신청과 발급", lit "사업자 세금계산서 발급 문의", lit "계좌이체와 입금 방법", lit "미결제 주문의 입금 마감",
  lit "주문 전용 가상계좌 정보", lit "입금했는데 주문에 반영되지 않음", lit "현재 진행하는 행사 목록", lit "특정 이벤트 일정과 내용",
  lit "특정 행사 참여 대상과 자격", lit "현재 가진 할인 쿠폰 목록", lit "주문에 할인 쿠폰 적용", lit "할인 쿠폰 적용이 안 되는 이유",
  lit "할인 쿠폰 만료일 조회", lit "보유 적립금과 포인트 확인", lit "적립금 사용 기준과 방법", lit "적립금 소멸 예정일 확인",
  lit "로그인이 안 되거나 계정 잠김", lit "잊어버린 비밀번호 복구", lit "계정 이메일 주소 수정", lit "계정 휴대폰 번호 수정",
  lit "계정 표시 이름 수정", lit "회원 계정 삭제 신청", lit "새 계정 가입 방법", lit "인증 코드나 본인확인 문제",
  lit "개인정보 보관과 열람 정책", lit "광고나 주문 알림 수신 설정", lit "현재 멤버십 등급 확인", lit "멤버십의 할인과 혜택",
  lit "멤버십 등급 상승 조건", lit "정기 구독 다음 갱신 날짜", lit "정기 구독 종료 신청", lit "정기 구독을 잠시 멈춤",
  lit "구독 상품의 다음 배송일 수정", lit "구독 상품을 받을 주소 수정", lit "정기 결제 수단 수정", lit "친구 초대 혜택과 코드",
  lit "사람 상담원과 대화 요청", lit "고객센터 상담 가능한 시간", lit "서비스 불만 정식 접수", lit "서비스 개선 제안 전달",
  lit "받은 제품이 파손되거나 고장", lit "상품 부속품이 빠져 있음", lit "구매한 제품 설치 방법", lit "제품 수리 또는 AS 요청",
  lit "제품 보증 기간과 범위", lit "제품 사용 매뉴얼 찾기", lit "안녕하세요 등 인사", lit "도움에 대한 감사 인사",
  lit "대화를 끝내는 인사", lit "챗봇으로 가능한 업무 안내", lit "지원 언어 문의", lit "오프라인 매장 주소 찾기",
  lit "고객센터 전화번호와 이메일", lit "상품 선물 포장 가능 여부", lit "주문에 선물 카드 문구 추가", lit "친환경 포장과 재활용 안내"]

def outOfScope : Str := lit "out_of_scope"

/-- The criteria of the first question. -/
def groups : List (Str × Str) :=
  categories.map (fun category =>
    (category.id, category.label ++ lit ": " ++ category.description)) ++
    [(outOfScope, lit "쇼핑 고객센터와 무관한 요청, 의미 불명, 정보 부족 / unrelated or unclear")]

/-- The criteria of the second question, for the key of a category. -/
def candidates (category : Str) : List (Str × Str) :=
  ((intents.zip descriptions).filter fun entry => entry.1.category.id = category).map fun entry =>
    (entry.1.id, entry.1.label ++ lit ": " ++ entry.2)

namespace Classifier

/-- What the client posts; the rest of the body is fixed. -/
structure Ask where
  model : Str
  state : Str
  criteria : List (Str × Str)

/-- The service, as it answers each request: the text of a successful response, or
what the client raises; and the arithmetic on floats. -/
structure Service where
  model : Str
  post : Ask → Except PyException Str
  sum : List ℚ → ℚ
  difference : ℚ → ℚ → ℚ

/-! ## Responses -/

/-- The `except (KeyError, TypeError)` clause. -/
def malformed {α : Type} (reading : Except PyException α) : Except PyException α :=
  match reading with
  | .error .keyError | .error (.other "TypeError") =>
      .error (.valueError "Classifier returned a malformed response")
  | other => other

/-- The two parts of a response that are read. -/
def parts (data : Json) : Except PyException (Json × Json) := do
  let answers ← Backend.member data (lit "answers")
  let intent ← Backend.member answers (lit "intent")
  let probabilities ← Backend.member intent (lit "probabilities")
  let served ← Backend.member data (lit "model")
  pure (probabilities, served)

/-- The least integers that `float` rejects are this large. -/
def floatLimit : Nat := 2 ^ 1024 - 2 ^ 970

/-- Whether a value is no probability. `math.isfinite` raises on an integer that
is no float. -/
def invalid (value : Json) : Except PyException Bool :=
  match value with
  | .number (.int number) =>
      if floatLimit ≤ number.natAbs then .error (.other "OverflowError")
      else .ok (decide (¬ (0 ≤ number ∧ number ≤ 1)))
  | .number (.float number) => .ok (decide (¬ (0 ≤ number.toRat ∧ number.toRat ≤ 1)))
  | _ => .ok true

/-- `any(...)` over the values. -/
def anyInvalid : List Json → Except PyException Bool
  | [] => .ok false
  | value :: rest => do
      if ← invalid value then .ok true else anyInvalid rest

/-- `math.isclose(total, 1, abs_tol=0.02)`. The relative tolerance is the smaller
one for totals of a dozen probabilities. -/
def isclose (service : Service) (total : ℚ) : Bool :=
  decide (total = 1 ∨ |service.difference 1 total| ≤ 2 / 100)

def numbers (members : List (Str × Json)) : List (Str × ℚ) :=
  members.map fun entry => (entry.1, (numberValue entry.2).getD 0)

/-- `_choose`, to its checks: the probabilities in the order of the response, and the
model that was served. -/
def weigh (service : Service) (state : Str) (criteria : List (Str × Str)) :
    Except PyException (List (Str × ℚ) × Str) := do
  let text ← service.post ⟨service.model, state, criteria⟩
  let data ← Decision.Artifact.parse text
  let (probabilities, served) ← malformed (parts data)
  match served with
  | .str served =>
      match probabilities with
      | .object members =>
          if Decision.Artifact.sameSet (members.map Prod.fst) (criteria.map Prod.fst) then
            if (← anyInvalid (members.map Prod.snd)) ||
                !isclose service (service.sum ((numbers members).map Prod.snd)) then
              .error (.valueError "Classifier returned invalid probabilities")
            else .ok (numbers members, served)
          else .error (.valueError "Classifier returned unexpected candidate IDs")
      | _ => .error (.valueError "Classifier returned unexpected candidate IDs")
  | _ => .error (.valueError "Classifier returned an invalid model identifier")

def choose (service : Service) (state : Str) (criteria : List (Str × Str)) :
    Except PyException (List (Str × ℚ) × Str) := do
  let (weights, served) ← weigh service state criteria
  pure (sortedDescending Prod.snd weights, served)

/-! ## Classification -/

structure Trace where
  model : Str
  category : Str
  categoryProbability : ℚ
  needsClarification : Option Bool

structure Classified where
  intent : Option Catalogued
  candidates : List (Catalogued × ℚ)
  trace : Trace

/-- `INTENTS[key]`. -/
def catalogued (key : Str) : Except PyException Catalogued :=
  match lookup key with
  | some intent => .ok intent
  | none => .error .keyError

def offer (entry : Str × ℚ) : Except PyException (Catalogued × ℚ) := do
  let intent ← catalogued entry.1
  pure (intent, entry.2)

/-- The state that both questions are about. -/
def asked (text context : Str) : Str :=
  lit "Latest customer message: " ++ text ++ lit "\nPrevious task (context only): " ++
    if context = [] then lit "none" else context

/-- Whether the best of a ranking is unlikely or hardly better than the next. -/
def doubtful (service : Service) (best next : ℚ) : Bool :=
  decide (best < 30 / 100) || decide (service.difference best next < 5 / 100)

def classify (service : Service) (text context : Str) : Except PyException Classified := do
  let state := asked text context
  let (rankedGroups, model) ← choose service state groups
  let (category, probability) ← at? rankedGroups 0
  if category = outOfScope then
    .ok ⟨none, [], model, category, probability, none⟩
  else do
    let (ranked, model) ← choose service state (candidates category)
    let top ← (ranked.take 3).mapM offer
    -- Both rankings have a second entry, so it does not matter when it is read.
    let nextGroup ← at? rankedGroups 1
    let best ← at? ranked 0
    let next ← at? ranked 1
    let uncertain := doubtful service probability nextGroup.2 || doubtful service best.2 next.2
    if uncertain then .ok ⟨none, top, model, category, probability, some true⟩
    else do
      let intent ← catalogued best.1
      .ok ⟨some intent, top, model, category, probability, some false⟩

end Classifier

end VllmVerifier.CustomerService
