import DrMemory.Shadow
import DrMemory.RbTree
import DrMemory.State
import DrMemory.Alloc
import DrMemory.DelayFreeFifo
import DrMemory.DelayFreeTree
import DrMemory.HeapShadow
import DrMemory.Signal
import DrMemory.Mmap
import DrMemory.MmapTracker
import DrMemory.CallstackTable
import DrMemory.Recognizer
import DrMemory.UnaddrExceptions
import DrMemory.Windows
import DrMemory.Process
