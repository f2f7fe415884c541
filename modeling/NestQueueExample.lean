import NestQueueExample.Foundations.Runs
import NestQueueExample.Foundations.SlidingWindow
import NestQueueExample.Foundations.InsertionMap
import NestQueueExample.Foundations.BoundedMap
import NestQueueExample.Foundations.Deadline
import NestQueueExample.Foundations.Polling
import NestQueueExample.Events.Feed
import NestQueueExample.Events.Stream
import NestQueueExample.Web.EventStream
import NestQueueExample.Common.BoundedRingBuffer
import NestQueueExample.Common.RingBufferVariants
import NestQueueExample.Workers.Tenants
import NestQueueExample.Workers.TierRegistry
import NestQueueExample.Workers.TenantQueues
import NestQueueExample.Workers.Invoices
import NestQueueExample.Processors.EmailProcessor
import NestQueueExample.Processors.ReceiptMarkers
import NestQueueExample.Queues.Names
import NestQueueExample.Events.Redact
import NestQueueExample.Events.Masking
import NestQueueExample.Processors.Listeners
import NestQueueExample.Processors.Noninterference
import NestQueueExample.Foundations.Tickets
import NestQueueExample.Processors.WebhookOrder
import NestQueueExample.Workers.Isolation
import NestQueueExample.Foundations.JobFlows
import NestQueueExample.Flows.Fulfillment
import NestQueueExample.Flows.TreeRead
import NestQueueExample.Foundations.FlowEndings
import NestQueueExample.Flows.FulfillmentEnd
import NestQueueExample.Web.FlowLaunch
import NestQueueExample.Foundations.Program
import NestQueueExample.Foundations.Schema
import NestQueueExample.Http.Validation
import NestQueueExample.Queues.Services
import NestQueueExample.Admin.Queues
import NestQueueExample.Schedulers.Controller
import NestQueueExample.Schedulers.Boot
import NestQueueExample.Admin.AllowList
import NestQueueExample.Queues.JobQueue
import NestQueueExample.Orders.Repository
import NestQueueExample.Orders.Eviction
import NestQueueExample.Orders.Placement
import NestQueueExample.Foundations.PercentEncoding
import NestQueueExample.Foundations.JsNumber
import NestQueueExample.Foundations.Utf16
import NestQueueExample.Foundations.Utf8Decoder
import NestQueueExample.Foundations.TextSearch
import NestQueueExample.Foundations.IdealHash
import NestQueueExample.Foundations.UrlPath
import NestQueueExample.Foundations.Url
import NestQueueExample.Foundations.UrlParser
import NestQueueExample.Foundations.UrlOrigin
import NestQueueExample.Config.Env
import NestQueueExample.Config.WebOrigin
import NestQueueExample.Config.QueueConfig
import NestQueueExample.Config.RedisUrls
import NestQueueExample.Foundations.Retries
import NestQueueExample.Processors.WebhookRetry
import NestQueueExample.Processors.Trails
import NestQueueExample.Foundations.CheckThenAct
import NestQueueExample.Foundations.Registers
import NestQueueExample.Search.Reindex
import NestQueueExample.Orders.Onboarding
import NestQueueExample.Orders.Campaign
import NestQueueExample.Orders.Mailing
import NestQueueExample.Orders.MailedOnce
import NestQueueExample.Orders.CampaignMails
import NestQueueExample.Web.Requests
import NestQueueExample.Web.PostRoutes
import NestQueueExample.Web.SchedulerRuns
import NestQueueExample.Web.ErrorsPage
import NestQueueExample.Web.QueuePage
import NestQueueExample.Web.JobLinks
import NestQueueExample.Web.JobPage
import NestQueueExample.Admin.Health
import NestQueueExample.Web.Readiness
import NestQueueExample.Web.DedupKeys
import NestQueueExample.Web.DedupLab
import NestQueueExample.Scripts.DemoShutdown
import NestQueueExample.Scripts.DemoRun
