import VllmVerifier.Python.Dict
import VllmVerifier.Python.Str
import VllmVerifier.Json.Value
import VllmVerifier.Json.Dumps
import VllmVerifier.Json.Grammar
import VllmVerifier.Json.Loads
import VllmVerifier.Json.LexicalProperties
import VllmVerifier.Python.Result
import VllmVerifier.Json.LoadsProperties
import VllmVerifier.Models
import VllmVerifier.Verification
import VllmVerifier.Json.AlphabetProperties
import VllmVerifier.VerificationProperties
import VllmVerifier.VerificationFraming
import VllmVerifier.Engine.Mlx
import VllmVerifier.Engine.Core
import VllmVerifier.Worklist
import VllmVerifier.Engine.CoreProperties
import VllmVerifier.Engine.EvaluateProperties
import VllmVerifier.Engine.ProgressProperties
import VllmVerifier.Engine.IsolationProperties
import VllmVerifier.Batching
import VllmVerifier.Decision.Readout
import VllmVerifier.Decision.Runtime
import VllmVerifier.Decision.RuntimeProperties
import VllmVerifier.Decision.Service
import VllmVerifier.Decision.ServiceProperties
import VllmVerifier.Decision.AccountingProperties
import VllmVerifier.Decision.AttributionProperties
import VllmVerifier.Middleware
import VllmVerifier.MiddlewareProperties
import VllmVerifier.Asyncio.Semaphore
import VllmVerifier.Asyncio.Slots
import VllmVerifier.Gateway.Service
import VllmVerifier.Gateway.TaskProperties
import VllmVerifier.Gateway.CallProperties
import VllmVerifier.Gateway.SlotProperties
import VllmVerifier.Gateway.DecideProperties
import VllmVerifier.Gateway.ProgressProperties
import VllmVerifier.Retry
import VllmVerifier.Semantics
import VllmVerifier.Engine.OracleProperties
import VllmVerifier.Gateway.OracleProperties
import VllmVerifier.Gateway.AgreementProperties
import VllmVerifier.Json.DumpsProperties
import VllmVerifier.PromptProperties
import VllmVerifier.AnswerProperties
import VllmVerifier.ConfidenceProperties
import VllmVerifier.Gateway.PromptProperties
import VllmVerifier.Engine.PromptProperties
import VllmVerifier.NoninterferenceProperties
import VllmVerifier.Python.Loop
import VllmVerifier.Decision.FailureProperties
import VllmVerifier.Decision.ContinuityProperties
import VllmVerifier.Decision.Endpoint
import VllmVerifier.Decision.EndpointProperties
import VllmVerifier.ResponseProperties
import VllmVerifier.Router
import VllmVerifier.RouterProperties
import VllmVerifier.Python.Sha256
import VllmVerifier.Decision.Artifact
import VllmVerifier.Decision.ArtifactProperties
import VllmVerifier.Engine.BudgetProperties
import VllmVerifier.Engine.GemmaProperties
import VllmVerifier.Decision.ReadoutProperties
import VllmVerifier.Json.DecimalProperties
import VllmVerifier.Decision.ReadoutAgreement
import VllmVerifier.Backend
import VllmVerifier.BackendProperties
import VllmVerifier.Decision.RecordsProperties
import VllmVerifier.Decision.CanonicalProperties
import VllmVerifier.Worklist.Serving
import VllmVerifier.Worklist.Turns
import VllmVerifier.Engine.ScheduleProperties
import VllmVerifier.Decision.BatchProperties
import VllmVerifier.BodyProperties
import VllmVerifier.Worklist.Traversal
import VllmVerifier.Contract
import VllmVerifier.ContractProperties
import VllmVerifier.Engine.StatisticsProperties
import VllmVerifier.Engine.TokenProperties
import VllmVerifier.Engine.Native
import VllmVerifier.Engine.NativeProperties
import VllmVerifier.CustomerService.Catalog
import VllmVerifier.CustomerService.Fixtures
import VllmVerifier.CustomerService.Slots
import VllmVerifier.CustomerService.Actions
import VllmVerifier.CustomerService.Dialogue
import VllmVerifier.CustomerService.ActionsProperties
import VllmVerifier.CustomerService.QuantityProperties
import VllmVerifier.CustomerService.SlotsProperties
import VllmVerifier.CustomerService.DialogueProperties
import VllmVerifier.Suspension
import VllmVerifier.CustomerService.FrameProperties
import VllmVerifier.CustomerService.ConfirmationProperties
import VllmVerifier.CustomerService.QueryProperties
import VllmVerifier.CustomerService.ExtractionProperties
import VllmVerifier.Asyncio.Lock
import VllmVerifier.CustomerService.Sessions
import VllmVerifier.CustomerService.SessionsProperties
import VllmVerifier.CustomerService.SessionStoreProperties
import VllmVerifier.CustomerService.SessionProgressProperties
import VllmVerifier.Decision.ProgressProperties
import VllmVerifier.Asyncio.Executor
import VllmVerifier.Engine.MlxBackend
import VllmVerifier.Engine.MlxBackendProperties
import VllmVerifier.Engine.MlxProgressProperties
import VllmVerifier.CustomerService.Classifier
import VllmVerifier.CustomerService.ClassifierProperties
import VllmVerifier.Demo.Engine
import VllmVerifier.Demo.EngineProperties
import VllmVerifier.Demo.GatewayProperties
import VllmVerifier.Python.Base64
import VllmVerifier.Vision
import VllmVerifier.VisionProperties
import VllmVerifier.Gateway.VisionProperties
import VllmVerifier.Metrics
import VllmVerifier.Cli
import VllmVerifier.MetricsProperties
import VllmVerifier.CliProperties
