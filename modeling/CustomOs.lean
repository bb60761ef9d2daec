import CustomOs.Library.MachineWord
import CustomOs.Library.Loop
import CustomOs.Library.Transition
import CustomOs.Library.Sweep
import CustomOs.Library.ByteMemory
import CustomOs.Library.LinkedChain
import CustomOs.MemoryMap
import CustomOs.MultibootParser
import CustomOs.ParserSafety
import CustomOs.FrameEligibility
import CustomOs.PhysicalFrames
import CustomOs.PhysicalFrameTracking
import CustomOs.FrameOwnership
import CustomOs.FrameExactness
import CustomOs.VmmLayout
import CustomOs.Paging
import CustomOs.PageMapper
import CustomOs.PageMapRefinement
import CustomOs.KernelHeap
import CustomOs.KernelHeapTiling
import CustomOs.KernelHeapCalls
import CustomOs.KernelHeapIsolation
import CustomOs.KernelMemory
import CustomOs.FrameConservation
import CustomOs.KernelObject
import CustomOs.KernelObjectIntegrity
import CustomOs.FrameReference
import CustomOs.KernelHeapRepresentation
import CustomOs.KernelHeapFirstFit
import CustomOs.Library.CheckedMemory
import CustomOs.KernelHeapCorruption
import CustomOs.Library.TranslationCache
import CustomOs.CachedTranslations
import CustomOs.HeapFrames
import CustomOs.MultibootDecoding
import CustomOs.KernelObjectLifecycle
import CustomOs.LayoutAgreement
import CustomOs.KernelMemoryPrimitives
import CustomOs.AllocatorFailures
import CustomOs.PageMapRestoration
import CustomOs.AccountingAgreement
import CustomOs.HeapGrowthFailure
import CustomOs.Library.Interaction
import CustomOs.HeapReference
import CustomOs.KernelServices
import CustomOs.SelfChecks
import CustomOs.FillAndCompare
import CustomOs.EarlyStages
import CustomOs.InterruptSetup
import CustomOs.InterruptHandling
import CustomOs.InterruptAccounts
import CustomOs.Library.WordStack
import CustomOs.InterruptStubs
import CustomOs.Library.TextCodec
import CustomOs.Console
import CustomOs.BootSequence
import CustomOs.ReuseSelfTest
import CustomOs.BootLog
import CustomOs.Library.PagedMemory
import CustomOs.MachineCode
