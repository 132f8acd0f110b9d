import CustomAi.OpenWebUI.ChatMessages
import CustomAi.OpenWebUI.ChatTagsRun
import CustomAi.OpenWebUI.FoldersRun
import CustomAi.OpenWebUI.GroupMembers
import CustomAi.OpenWebUI.KnowledgeAccess
import CustomAi.OpenWebUI.Permissions
import CustomAi.OpenWebUI.RateLimit
import CustomAi.OpenWebUI.RedisLock
import CustomAi.OpenWebUI.Retrieval
import CustomAi.OpenWebUI.SaveDocs
import CustomAi.OpenWebUI.SharedChatsRun
import CustomAi.OpenWebUI.StopItemTasks
import CustomAi.OpenWebUI.StreamChunks
import CustomAi.OpenWebUI.TagSections
import CustomAi.OpenWebUI.TaskRegistry
import CustomAi.OpenWebUI.YdocAccess
import CustomAi.OpenWebUI.YdocSessions
import CustomAi.Ragflow.CanvasTopology
import CustomAi.Ragflow.CanvasVariables
import CustomAi.Ragflow.Citations
import CustomAi.Ragflow.EntityQuotient
import CustomAi.Ragflow.GraphMirrorMerge
import CustomAi.Ragflow.IterationRun
import CustomAi.Ragflow.MetaFilter
import CustomAi.Ragflow.QueueTasks
import CustomAi.Ragflow.Raptor
import CustomAi.Ragflow.RetrievalPages
import CustomAi.Ragflow.TaskProgress
import CustomAi.Vllm.ARCOffloadingRun
import CustomAi.Vllm.AsyncPlaceholders
import CustomAi.Vllm.BatchSwap
import CustomAi.Vllm.BlockPoolEvents
import CustomAi.Vllm.EncoderCalls
import CustomAi.Vllm.EncoderSupply
import CustomAi.Vllm.GrammarMasksRun
import CustomAi.Vllm.HashSoundness
import CustomAi.Vllm.InputBatchRun
import CustomAi.Vllm.KVCacheFootprint
import CustomAi.Vllm.LRUOffloadingRun
import CustomAi.Vllm.LocalAttentionCache
import CustomAi.Vllm.MaxModelLen
import CustomAi.Vllm.MsgpackMessages
import CustomAi.Vllm.MultiModalMirror
import CustomAi.Vllm.NgramProposer
import CustomAi.Vllm.OutputCollector
import CustomAi.Vllm.StepOutput
import CustomAi.Vllm.OutputProcessorRun
import CustomAi.Vllm.PromptUpdatesRun
import CustomAi.Vllm.ReasoningParser
import CustomAi.Vllm.RebalanceRun
import CustomAi.Vllm.RejectionKernel
import CustomAi.Vllm.RemoteLoad
import CustomAi.Vllm.RunningProgress
import CustomAi.Vllm.RunningScan
import CustomAi.Vllm.SessionHashes
import CustomAi.Vllm.ShmRingBufferRun
import CustomAi.Vllm.SlidingWindowHit
import CustomAi.Vllm.SlotMapping
import CustomAi.Vllm.StopGrouping
