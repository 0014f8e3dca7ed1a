import WinPolyfillLoader.Status
import WinPolyfillLoader.Version
import WinPolyfillLoader.Library.CountedArray
import WinPolyfillLoader.Library.Runs
import WinPolyfillLoader.InvertedFunctionTable.Layout64
import WinPolyfillLoader.InvertedFunctionTable.Layout32
import WinPolyfillLoader.Library.Heap
import WinPolyfillLoader.Library.HeapLedger
import WinPolyfillLoader.Library.Memory
import WinPolyfillLoader.MmpTls.Process
import WinPolyfillLoader.MmpTls.SetInformationProcess
import WinPolyfillLoader.MmpTls.HandleTlsData
import WinPolyfillLoader.MmpTls.FailureCleanup
import WinPolyfillLoader.MmpTls.Loading
import WinPolyfillLoader.MmpTls.Threads
import WinPolyfillLoader.MmpTls.ThreadStart
import WinPolyfillLoader.MmpTls.Initialize
import WinPolyfillLoader.MmpTls.IndexRegistry
import WinPolyfillLoader.MmpTls.Kernel
import WinPolyfillLoader.MmpTls.NewThreadData
import WinPolyfillLoader.MmpTls.ProcessRun
import WinPolyfillLoader.MmpTls.ThreadCount
import WinPolyfillLoader.MmpTls.Ownership
import WinPolyfillLoader.MmpTls.OwnershipSteps
import WinPolyfillLoader.MmpTls.OwnershipLoads
import WinPolyfillLoader.MmpTls.HookExits
import WinPolyfillLoader.MmpTls.FlatMemory
import WinPolyfillLoader.MmpTls.SlotRefinement
import WinPolyfillLoader.MmpTls.IndexRanges
import WinPolyfillLoader.MmpTls.MappingLoop
import WinPolyfillLoader.MmpTls.VectorsInStep
import WinPolyfillLoader.LdrEntry.State
import WinPolyfillLoader.LdrEntry.BaseAddressIndex
import WinPolyfillLoader.LdrEntry.DataTableEntry
import WinPolyfillLoader.LdrEntry.MapDllMemory
import WinPolyfillLoader.LdrEntry.IndexInverse
import WinPolyfillLoader.LdrEntry.FreeDependencies
import WinPolyfillLoader.LdrEntry.Unlinking
import WinPolyfillLoader.Loader.Process
import WinPolyfillLoader.Loader.LdrLoadDllMemory
import WinPolyfillLoader.Loader.Unload
import WinPolyfillLoader.Loader.Rollback
import WinPolyfillLoader.Loader.ReferenceCount
import WinPolyfillLoader.ImportTable.Resolve
import WinPolyfillLoader.ImportTable.Binding
import WinPolyfillLoader.ImportTable.UninitializedName
import WinPolyfillLoader.MemoryModule.Machine
import WinPolyfillLoader.MemoryModule.MemoryLoadLibrary
import WinPolyfillLoader.MemoryModule.Sections
import WinPolyfillLoader.MemoryModule.Relocation
import WinPolyfillLoader.MemoryModule.DllImage
import WinPolyfillLoader.MemoryModule.CommittedPages
import WinPolyfillLoader.MemoryModule.MappedImage
import WinPolyfillLoader.MemoryModule.Accesses
import WinPolyfillLoader.MemoryModule.WritesInside
import WinPolyfillLoader.MemoryModule.ImageCheck
import WinPolyfillLoader.MmpTls.ReplaceVector
import WinPolyfillLoader.MmpTls.OwnershipStart
import WinPolyfillLoader.MmpTls.InstalledVectors
import WinPolyfillLoader.MmpTls.DataBlocks
import WinPolyfillLoader.LdrEntry.IncomingSearch
import WinPolyfillLoader.LdrEntry.IndexDescent
import WinPolyfillLoader.InvertedFunctionTable.InsertStatus
import WinPolyfillLoader.InvertedFunctionTable.TableBytes
import WinPolyfillLoader.Library.DoublyLinked
import WinPolyfillLoader.LdrEntry.ModuleLists
import WinPolyfillLoader.Loader.LoadDllMemoryApi
import WinPolyfillLoader.MmpDotNet.FakeHandles
import WinPolyfillLoader.MmpDotNet.ClosedHandles
import WinPolyfillLoader.Loader.LoaderList
import WinPolyfillLoader.MmpDotNet.HookInstallation
import WinPolyfillLoader.MmpDotNet.LiveModules
import WinPolyfillLoader.Library.SharedSection
import WinPolyfillLoader.Loader.GlobalData
import WinPolyfillLoader.Loader.GlobalBlock
import WinPolyfillLoader.Loader.LoadExits
import WinPolyfillLoader.MmpTls.RejectedRequest
import WinPolyfillLoader.Library.ErasingLoop
import WinPolyfillLoader.MmpTls.PostponedWorker
import WinPolyfillLoader.MmpTls.BootstrapReport
import WinPolyfillLoader.MemoryModule.LoadRuns
import WinPolyfillLoader.MemoryModule.RelocationWalk
import WinPolyfillLoader.MemoryModule.RebasedRuns
import WinPolyfillLoader.Library.Overwrites
import WinPolyfillLoader.MemoryModule.SectionProtection
import WinPolyfillLoader.LdrEntry.SectionLookup
import WinPolyfillLoader.MemoryModule.SectionSizes
import WinPolyfillLoader.LdrEntry.PatternSearch
import WinPolyfillLoader.Library.OnesComplement
import WinPolyfillLoader.Utils.VirtualAccess
import WinPolyfillLoader.Utils.CheckSum
import WinPolyfillLoader.Loader.Registries
import WinPolyfillLoader.Loader.RegistryUnloads
import WinPolyfillLoader.Loader.RegistryLoads
import WinPolyfillLoader.Loader.ListProcess
import WinPolyfillLoader.InvertedFunctionTable.StatusRuns
import WinPolyfillLoader.Loader.TableRegistry
import WinPolyfillLoader.Loader.RegistryRuns
import WinPolyfillLoader.Loader.ReusedName
import WinPolyfillLoader.LdrEntry.HashTable
import WinPolyfillLoader.LdrEntry.HashTableSearch
import WinPolyfillLoader.ImportTable.Conversation
import WinPolyfillLoader.ImportTable.FirstFailure
import WinPolyfillLoader.LdrEntry.EntryLayout
import WinPolyfillLoader.LdrEntry.EntrySize
import WinPolyfillLoader.LdrEntry.FollowedLinks
import WinPolyfillLoader.LdrEntry.FindBaseAddressIndex
import WinPolyfillLoader.Library.Lexicographic
import WinPolyfillLoader.Utils.CompareStrings
import WinPolyfillLoader.MmpDotNet.FileNames
import WinPolyfillLoader.MmpTls.QuerySystemInformation
import WinPolyfillLoader.Library.Additions
import WinPolyfillLoader.MemoryModule.ReflectiveRelocation
import WinPolyfillLoader.Library.Copies
import WinPolyfillLoader.ReflectiveLoader.MapImage
import WinPolyfillLoader.ReflectiveLoader.Exports
import WinPolyfillLoader.ReflectiveLoader.ModuleSearch
import WinPolyfillLoader.ReflectiveLoader.Imports
import WinPolyfillLoader.ReflectiveLoader.ImportBinding
import WinPolyfillLoader.ReflectiveLoader.Run
import WinPolyfillLoader.ReflectiveLoader.TwoLoaders
import WinPolyfillLoader.Library.Members
import WinPolyfillLoader.InvertedFunctionTable.FindTable
import WinPolyfillLoader.Library.NestedScopes
import WinPolyfillLoader.Win32Crt.ExceptHandler3
import WinPolyfillLoader.MmpTls.WorkerRuns
import WinPolyfillLoader.LdrEntry.EntryLifetime
